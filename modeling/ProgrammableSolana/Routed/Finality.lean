import ProgrammableSolana.Routed.Runs

/-! The settlement digest a COMMIT phase is given speaks of the state the instruction leaves. -/
namespace ProgrammableSolana.Routed

open ProgrammableSolana.Lib ProgrammableSolana.Solana ProgrammableSolana.Core
open ProgrammableSolana.Wire.Routed (timingPrepareCommit phasePrepare phaseCommit)

section

variable [Crypto]

/-- A call of the market's engine: what it decodes to and the receipt it returned. -/
structure AnsweredPhase (a : ExecuteCallbackAuthenticatedProbeV0) (phase : UInt8)
    (request : Wire.Routed.EngineRequest) (receipt : Wire.Routed.EngineReceipt)
    (c : EngineCall CoreState) : Prop where
  programId : c.instruction.programId = a.engineProgram.key
  decoded : Wire.Routed.decodeEngineInstruction c.instruction.data = .ok request
  phase : request.binding.phase = phase
  returned : ∃ data, c.returned = some (a.engineProgram.key, data) ∧
    Wire.Routed.decodeReceipt data = .ok receipt

/-- A settlement binding every field of which agrees with the ledgers before and after. -/
structure SettlementFinal (L L' : Ledger) (a : ExecuteCallbackAuthenticatedProbeV0)
    (args : ExecuteCallbackAuthenticatedProbeV0Args) (b : Wire.Routed.SettlementBinding) :
    Prop where
  domainBefore : ∃ domain, L.state? ID a.domain.key = some (.domain domain) ∧
    b.accountedInputBefore = domain.accountedA ∧ b.accountedOutputBefore = domain.accountedB
  feeLedgerBefore : ∃ feeLedger, L.state? ID a.feeLedger.key = some (.feeLedger feeLedger) ∧
    b.accountedFeeBefore = feeLedger.accountedFeeA
  domainAfter : ∃ domain, L'.state? ID a.domain.key = some (.domain domain) ∧
    b.accountedInputAfter = domain.accountedA ∧ b.accountedOutputAfter = domain.accountedB
  feeLedgerAfter : ∃ feeLedger, L'.state? ID a.feeLedger.key = some (.feeLedger feeLedger) ∧
    b.accountedFeeAfter = feeLedger.accountedFeeA
  source : ∃ t, L'.token? a.userSourceA.key = some t ∧ b.observedSourceAfter = t.amount
  destination : ∃ t, L'.token? a.userDestinationB.key = some t ∧
    b.observedDestinationAfter = t.amount
  vaultA : ∃ t, L'.token? a.vaultA.key = some t ∧ b.observedInputVaultAfter = t.amount
  vaultB : ∃ t, L'.token? a.vaultB.key = some t ∧ b.observedOutputVaultAfter = t.amount
  feeVault : ∃ t, L'.token? a.feeVault.key = some t ∧ b.observedFeeVaultAfter = t.amount
  amountIn : b.amountIn = args.amountIn
  protocolFee : b.protocolFee.toNat = ceilFee args.amountIn.toNat protocolFeeBpsV0.toNat
  totalInputDebit : b.totalInputDebit.toNat = b.amountIn.toNat + b.protocolFee.toNat
  inputAfter : b.accountedInputAfter.toNat = b.accountedInputBefore.toNat + b.amountIn.toNat
  outputAfter : b.accountedOutputBefore.toNat = b.accountedOutputAfter.toNat + b.amountOut.toNat
  feeAfter : b.accountedFeeAfter.toNat = b.accountedFeeBefore.toNat + b.protocolFee.toNat

/-- A phase binding with the accounted values a settlement binding starts from. -/
structure SameBefore (request : Wire.Routed.EngineRequest) (b : Wire.Routed.SettlementBinding) :
    Prop where
  intentDigest : request.binding.intentDigest = b.intentDigest
  amountIn : request.binding.amountIn = b.amountIn
  protocolFee : request.binding.protocolFee = b.protocolFee
  accountedInput : request.binding.accountedInputBefore = b.accountedInputBefore
  accountedOutput : request.binding.accountedOutputBefore = b.accountedOutputBefore
  accountedFee : request.binding.accountedFeeBefore = b.accountedFeeBefore

theorem PhaseAccepted.answered {w w' : Core.World} {a : ExecuteCallbackAuthenticatedProbeV0}
    {d : EnvelopeData} {args : ExecuteCallbackAuthenticatedProbeV0Args} {i : AuthenticatedIntent}
    {phase : UInt8} {mode : CapabilityMode} {context : Hash} {preSequence : UInt64}
    {callback : AccountInfo} {request : Wire.Routed.EngineRequest}
    {receipt : Wire.Routed.EngineReceipt} {c : EngineCall CoreState}
    (h : PhaseAccepted w w' a d args i phase mode context preSequence callback request receipt c) :
    AnsweredPhase a phase request receipt c := by
  obtain ⟨capability, hrequest⟩ := h.requested
  obtain ⟨data, hreturned, hencode⟩ := h.called.returned
  exact ⟨h.called.programId, Wire.Routed.decodeEngineInstruction_ok_iff.mpr h.called.data,
    hrequest.phase, data, hreturned, Wire.Routed.decodeReceipt_ok_iff.mpr hencode⟩

/-- The settlement binding of an execution. -/
def Stages.settlementBinding (x : Stages) (args : ExecuteCallbackAuthenticatedProbeV0Args) :
    Wire.Routed.SettlementBinding :=
  Routed.settlementBinding x.after args x.settlement x.intent.intentDigest
    x.request.executionDigest x.receiptDigest

namespace CallbackAuthenticated

variable {env : Env config} {w w₁ w₂ w₃ w' : Core.World} {a : ExecuteCallbackAuthenticatedProbeV0}
  {args : ExecuteCallbackAuthenticatedProbeV0Args} {x : Stages}

private theorem accounted_after (h : CallbackAuthenticated env w w₁ w₂ w₃ w' a args x) :
    x.after.domain = x.d.domain ∧ x.after.feeLedger = x.d.feeLedger := by
  rw [h.settled.rest]
  exact ⟨rfl, rfl⟩

private theorem settlementFinal (h : CallbackAuthenticated env w w₁ w₂ w₃ w' a args x) :
    SettlementFinal w.ledger w'.ledger a args (x.settlementBinding args) := by
  obtain ⟨hdomain, hfeeLedger⟩ := h.accounted_after
  have htokens := h.executed.tokens
  exact {
    domainBefore := ⟨x.d.domain, h.accounts.bound.domain,
      congrArg DomainV0.accountedA hdomain, congrArg DomainV0.accountedB hdomain⟩
    feeLedgerBefore := ⟨x.d.feeLedger, h.accounts.bound.feeLedger,
      congrArg FeeLedgerV0.accountedFeeA hfeeLedger⟩
    domainAfter := ⟨_, h.executed.domain, rfl, rfl⟩
    feeLedgerAfter := ⟨_, h.executed.feeLedger, rfl⟩
    source := ⟨_, htokens.userSourceA, rfl⟩
    destination := ⟨_, htokens.userDestinationB, rfl⟩
    vaultA := ⟨_, htokens.vaultA, rfl⟩
    vaultB := ⟨_, htokens.vaultB, rfl⟩
    feeVault := ⟨_, htokens.feeVault, rfl⟩
    amountIn := rfl
    protocolFee := h.executed.fee
    totalInputDebit := h.settled.total
    inputAfter := by
      have hA := h.settlement.postA
      rw [← hdomain] at hA
      exact hA
    outputAfter := by
      have hB := h.settlement.postB
      rw [← hdomain] at hB
      exact hB
    feeAfter := by
      have hF := h.settlement.postFeeA
      rw [← hfeeLedger] at hF
      exact hF }

private theorem sameBefore (h : CallbackAuthenticated env w w₁ w₂ w₃ w' a args x) {phase : UInt8}
    {context capability : Hash} {preSequence : UInt64} {request : Wire.Routed.EngineRequest}
    (hr : RequestOk a x.d args x.intent phase context preSequence capability request) :
    SameBefore request (x.settlementBinding args) := by
  obtain ⟨hdomain, hfeeLedger⟩ := h.accounted_after
  exact {
    intentDigest := hr.intentDigest
    amountIn := hr.amountIn
    protocolFee := hr.protocolFee.trans h.settlement.protocolFee.symm
    accountedInput := hr.accountedInputBefore.trans (congrArg DomainV0.accountedA hdomain.symm)
    accountedOutput := hr.accountedOutputBefore.trans (congrArg DomainV0.accountedB hdomain.symm)
    accountedFee := hr.accountedFeeBefore.trans (congrArg FeeLedgerV0.accountedFeeA hfeeLedger.symm) }

end CallbackAuthenticated

/-- Cross-phase finality: the phase context of COMMIT is the digest of a binding that agrees with
the state before the execution, the accepted PREPARE, and the state the instruction leaves. -/
theorem prepareCommit_final (env : Env config) (a : ExecuteCallbackAuthenticatedProbeV0)
    (args : ExecuteCallbackAuthenticatedProbeV0Args) (w w' : Core.World)
    (htiming : args.timingMode = timingPrepareCommit)
    (h : (handleExecuteCallbackAuthenticatedProbeV0 env a args).run w = (.ok (), w')) :
    ∃ c₁ c₂ prepare commit receipt receipt' b,
      engineCalls w'.log = engineCalls w.log ++ [c₁, c₂] ∧
      AnsweredPhase a phasePrepare prepare receipt c₁ ∧
      AnsweredPhase a phaseCommit commit receipt' c₂ ∧
      SettlementFinal w.ledger w'.ledger a args b ∧
      Wire.Routed.computeSettlementDigest b = .ok commit.binding.phaseContextDigest ∧
      SameBefore prepare b ∧ SameBefore commit b ∧
      b.amountOut = receipt.amountOut ∧ b.amountOut = receipt'.amountOut ∧
      b.primaryExecutionDigest = prepare.executionDigest ∧
      receipt.executionDigest = prepare.executionDigest ∧
      Wire.Routed.computeReceiptDigest receipt = .ok b.primaryReceiptDigest := by
  obtain ⟨w₁, w₂, w₃, x, hx⟩ := execute_ok h
  have hne : timingPrepareCommit ≠ Wire.Routed.timingSingle := by decide
  obtain ⟨hsingle, -⟩ | ⟨-, commit, receipt', c₂, hcommit⟩ := hx.committed
  · exact absurd (htiming.symm.trans hsingle) hne
  have hphase : x.phase = phasePrepare := by
    rcases primaryPhase_ok hx.terms.phase with ⟨hs, -⟩ | ⟨-, hp⟩
    · exact absurd (htiming.symm.trans hs) hne
    · exact hp
  obtain ⟨capability, hprepare⟩ := hx.primary.requested
  obtain ⟨capability', hcommitted⟩ := hcommit.accepted.requested
  obtain ⟨e, hlog, -⟩ := hx.emitted
  have hcalls : engineCalls w'.log = engineCalls w.log ++ [x.call, c₂] := by
    rw [hlog, engineCalls_append, engineCalls_emitted, engineCalls_nil, List.append_nil,
      hcommit.accepted.called.calls, hx.calls₂, hx.primary.called.calls, List.append_assoc]
    rfl
  refine ⟨x.call, c₂, x.request, commit, x.receipt, receipt', x.settlementBinding args, hcalls,
    hphase ▸ hx.primary.answered, hcommit.accepted.answered, hx.settlementFinal, ?_,
    hx.sameBefore hprepare, hx.sameBefore hcommitted, hx.settlement.amountOut, ?_, rfl,
    hx.primary.receiptExecution, hx.receiptDigest⟩
  · rw [hcommitted.phaseContextDigest]
    exact hx.settlementDigest
  · exact hx.settlement.amountOut.trans hcommit.amountOut.symm

end

section Sample

attribute [local instance] Sample.crypto

theorem prepareCommit_final_sample : ∃ commit b,
    SettlementFinal (Sample.authorized timingPrepareCommit Sample.twoPhase).ledger
      (Sample.executed timingPrepareCommit Sample.twoPhase).ledger
      (Sample.execute Sample.twoPhase) (Sample.executeArgs timingPrepareCommit Sample.twoPhase) b ∧
    Wire.Routed.computeSettlementDigest b = .ok commit.binding.phaseContextDigest ∧
    SameBefore commit b := by
  obtain ⟨c₁, c₂, prepare, commit, receipt, receipt', b, -, -, -, hfinal, hdigest, -, hsame, -⟩ :=
    prepareCommit_final Sample.env (Sample.execute Sample.twoPhase)
      (Sample.executeArgs timingPrepareCommit Sample.twoPhase)
      (Sample.authorized timingPrepareCommit Sample.twoPhase)
      (Sample.executed timingPrepareCommit Sample.twoPhase) rfl sample_executes
  exact ⟨commit, b, hfinal, hdigest, hsame⟩

end Sample

end ProgrammableSolana.Routed
