import ProgrammableSolana.Generated.Runs
import ProgrammableSolana.Root.Runs
import ProgrammableSolana.Routed.Runs

/-! The limits a user sets on an execution, in all three Cores and against any engine. -/
namespace ProgrammableSolana.Cores

open ProgrammableSolana.Lib ProgrammableSolana.Solana ProgrammableSolana.Core
open ProgrammableSolana.Root (ExecuteEngineProbeV0 ExecuteEngineProbeV0Args)
open ProgrammableSolana.Generated (ExecuteEngineGeneratedProbeV0 ExecuteEngineGeneratedProbeV0Args)
open ProgrammableSolana.Routed (ExecuteCallbackAuthenticatedProbeV0
  ExecuteCallbackAuthenticatedProbeV0Args)
open ProgrammableSolana.Wire.Routed (timingSingle timingPrepareCommit phaseTransition phasePrepare
  phaseCommit)

section Delivery

/-- The input of an execution and the limits its user sets. -/
structure Limits where
  amountIn : UInt64
  maxTotalInputDebit : UInt64
  minOutputCredit : UInt64
  maxProtocolFee : UInt64
  expiresAtSlot : UInt64

/-- The balance at `k` falls by `n`. -/
def Falls (L L' : Ledger) (k : Pubkey) (n : ℕ) : Prop :=
  ∃ t t', L.token? k = some t ∧ L'.token? k = some t' ∧ t.amount.toNat = t'.amount.toNat + n

/-- The balance at `k` rises by `n`. -/
def Rises (L L' : Ledger) (k : Pubkey) (n : ℕ) : Prop :=
  ∃ t t', L.token? k = some t ∧ L'.token? k = some t' ∧ t'.amount.toNat = t.amount.toNat + n

/-- The five balances and the accounted fields after `amountIn` came in, `amountOut` went out and
`fee` was kept. -/
structure Moved (cfg : Config) (L L' : Ledger) (e : Envelope) (amountIn amountOut fee : ℕ) :
    Prop where
  source : Falls L L' e.userSourceA.key (amountIn + fee)
  destination : Rises L L' e.userDestinationB.key amountOut
  vaultA : Rises L L' e.vaultA.key amountIn
  vaultB : Falls L L' e.vaultB.key amountOut
  feeVault : Rises L L' e.feeVault.key fee
  domain : ∃ (x : DomainV0) (a b : UInt64),
    L.state? cfg.ID e.domain.key = some (.domain x) ∧
    L'.state? cfg.ID e.domain.key = some (.domain { x with accountedA := a, accountedB := b }) ∧
    a.toNat = x.accountedA.toNat + amountIn ∧ x.accountedB.toNat = b.toNat + amountOut ∧
    amountOut ≤ x.accountedB.toNat
  feeLedger : ∃ (x : FeeLedgerV0) (a : UInt64),
    L.state? cfg.ID e.feeLedger.key = some (.feeLedger x) ∧
    L'.state? cfg.ID e.feeLedger.key = some (.feeLedger { x with accountedFeeA := a }) ∧
    a.toNat = x.accountedFeeA.toNat + fee
  distinct : (e.domain.key :: e.feeLedger.key :: e.tokenKeys).Nodup

/-- An execution at `slot` kept the limits, moved exactly the amounts and, with `calls` made to the
engine, changed nothing else that they could not write. -/
structure Delivered (cfg : Config) (w w' : World) (e : Envelope) (l : Limits)
    (slot amountOut : UInt64) (calls : List (EngineCall CoreState)) : Prop where
  slot : slot ≤ l.expiresAtSlot
  maxTotal : l.amountIn.toNat + ceilFee l.amountIn.toNat 30 ≤ l.maxTotalInputDebit.toNat
  maxFee : ceilFee l.amountIn.toNat 30 ≤ l.maxProtocolFee.toNat
  positive : 0 < amountOut
  minOutput : l.minOutputCredit ≤ amountOut
  moved : Moved cfg w.ledger w'.ledger e l.amountIn.toNat amountOut.toNat
    (ceilFee l.amountIn.toNat 30)
  called : engineCalls w'.log = engineCalls w.log ++ calls
  frame : ∀ k, (∀ c ∈ calls, (c.instruction.privileges cfg.ID).writable k = false) →
    k ∉ e.tokenKeys → k ≠ e.domain.key → k ≠ e.feeLedger.key → w'.ledger k = w.ledger k

/-- The market's engine program left exactly this image as the return data of the call. -/
def Returned {ε : Type} (cfg : Config) (L : Ledger) (market : Pubkey) (c : EngineCall CoreState)
    (image : Except ε (List UInt8)) : Prop :=
  ∃ m data, L.state? cfg.ID market = some (.market m) ∧ c.instruction.programId = m.engineProgram ∧
    c.returned = some (m.engineProgram, data) ∧ image = .ok data

variable [Crypto] {cfg : Config}

private theorem domain_feeLedger_tokens_nodup {L : Ledger} {e : Envelope} {d : EnvelopeData}
    (h : Bound cfg L e d) (hnodup : e.tokenKeys.Nodup) :
    (e.domain.key :: e.feeLedger.key :: e.tokenKeys).Nodup := by
  have htoken : ∀ k s, L.state? cfg.ID k = some s → k ∉ e.tokenKeys := by
    intro k s hs hmem
    obtain ⟨x, hx⟩ := h.token_of_mem hmem
    exact Ledger.state?_ne_token? hs hx rfl
  constructor
  · intro k hk
    rcases List.mem_cons.mp hk with rfl | hmem
    · exact h.domain_ne_feeLedger
    · rintro rfl
      exact htoken _ _ h.domain hmem
  · constructor
    · rintro k hmem rfl
      exact htoken _ _ h.feeLedger hmem
    · exact hnodup

variable {L L' : Ledger} {e : Envelope} {d after : EnvelopeData} {authority : Pubkey}
  {t : SettleTerms} {post : PostAccounted} {engine : Pubkey → Bool}

private theorem executed_moved (h : Executed cfg L L' e d after authority t post engine) :
    Moved cfg L L' e t.amountIn.toNat t.amountOut.toNat (ceilFee t.amountIn.toNat 30) := by
  have hfee : t.protocolFee.toNat = ceilFee t.amountIn.toNat 30 := h.fee
  obtain ⟨L₁, L₂, hset⟩ := h.settled
  have hsource := hset.sourceDebit.amount
  have hvaultB := hset.vaultBDebit.amount
  have htotal := hset.total
  constructor
  · refine ⟨_, _, h.bound.userSourceA, h.tokens.userSourceA, ?_⟩
    omega
  · exact ⟨_, _, h.bound.userDestinationB, h.tokens.userDestinationB, hset.destinationCredit.amount⟩
  · exact ⟨_, _, h.bound.vaultA, h.tokens.vaultA, hset.vaultACredit.amount⟩
  · exact ⟨_, _, h.bound.vaultB, h.tokens.vaultB, hvaultB.symm⟩
  · refine ⟨_, _, h.bound.feeVault, h.tokens.feeVault, ?_⟩
    rw [hset.feeVaultCredit.amount, hfee]
  · refine ⟨_, _, _, h.bound.domain, h.domain, h.postA, h.postB, ?_⟩
    have hB := h.postB
    omega
  · refine ⟨_, _, h.bound.feeLedger, h.feeLedger, ?_⟩
    rw [h.postFeeA, hfee]
  · exact domain_feeLedger_tokens_nodup h.bound h.distinct

end Delivery

section Receipts

variable [Crypto]

private theorem returned_of_bound {ε : Type} {cfg : Config} {L : Ledger} {e : Envelope}
    {d : EnvelopeData}
    (h : Bound cfg L e d) {c : EngineCall CoreState} {data : List UInt8}
    {image : Except ε (List UInt8)} (hprogram : c.instruction.programId = e.engineProgram.key)
    (hreturned : c.returned = some (e.engineProgram.key, data)) (himage : image = .ok data) :
    Returned cfg L e.market.key c image := by
  rw [h.engineProgram] at hprogram hreturned
  exact ⟨d.market, data, h.market, hprogram, hreturned, himage⟩

def rootLimits (args : ExecuteEngineProbeV0Args) : Limits where
  amountIn := args.amountIn
  maxTotalInputDebit := args.maxTotalInputDebit
  minOutputCredit := args.minOutputCredit
  maxProtocolFee := args.maxProtocolFee
  expiresAtSlot := args.expiresAtSlot

/-- The receipt of the call answers the plan that the call carried. -/
structure RootReceipt (L : Ledger) (a : ExecuteEngineProbeV0) (args : ExecuteEngineProbeV0Args)
    (d : EnvelopeData) (c : EngineCall CoreState) (receipt : Wire.Root.EngineReceipt) : Prop where
  returned : Returned Root.config L a.market.key c (Wire.Root.encodeReceipt receipt)
  digest : ∃ fee, fee.toNat = ceilFee args.amountIn.toNat 30 ∧
    Wire.Root.computePlanHash (Root.planBinding a d args fee) = .ok receipt.planHash ∧
    Wire.Root.encodeEvaluateInstruction (Root.engineRequest a d args fee receipt.planHash) =
      .ok c.instruction.data

private theorem root_execute_delivers {env : Env Root.config} {a : ExecuteEngineProbeV0}
    {args : ExecuteEngineProbeV0Args} {w w' : Core.World} {u : Unit}
    (h : (Root.handleExecuteEngineProbeV0 env a args).run w = (.ok u, w')) :
    ∃ d c receipt, Bound Root.config w.ledger a.toEnvelope d ∧
      Delivered Root.config w w' a.toEnvelope (rootLimits args) env.slot args.amountOut [c] ∧
      RootReceipt w.ledger a args d c receipt := by
  obtain ⟨d, plan, receipt, hran⟩ := Root.execute_ok_iff.mp h
  obtain ⟨after, hp⟩ := hran.probed
  obtain ⟨data, ⟨c, hix, -, hreturned, hcalls⟩, hencode, hhash⟩ := hp.received
  have hbound := hp.accounts.bound
  have hfee : plan.protocolFee.toNat = ceilFee args.amountIn.toNat 30 := hp.executed.fee
  have hmaxFee := UInt64.le_iff_toNat_le.mp hp.planned.maxFee
  have hmaxTotal := UInt64.le_iff_toNat_le.mp hp.planned.maxTotal
  rw [hp.planned.total, hfee] at hmaxTotal
  rw [hfee] at hmaxFee
  refine ⟨d, c, receipt, hbound, ?_, ?_⟩
  · constructor
    · exact hp.planned.slot
    · exact hmaxTotal
    · exact hmaxFee
    · exact hp.planned.amountOut
    · exact hp.planned.minOutput
    · exact executed_moved hp.executed
    · exact hcalls
    · intro k hk hset hd hf
      have hwrite := hk c (List.mem_singleton.mpr rfl)
      rw [hix] at hwrite
      exact hp.executed.frame hwrite hset hd hf
  · constructor
    · refine returned_of_bound hbound ?_ hreturned hencode
      rw [hix, hp.planned.programId]
    · refine ⟨plan.protocolFee, hfee, ?_, ?_⟩
      · rw [hhash, ← hp.planned.binding]
        exact hp.planned.digest
      · rw [hhash, hix]
        exact hp.planned.data

def generatedLimits (args : ExecuteEngineGeneratedProbeV0Args) : Limits where
  amountIn := args.amountIn
  maxTotalInputDebit := args.maxTotalInputDebit
  minOutputCredit := args.minOutputCredit
  maxProtocolFee := args.maxProtocolFee
  expiresAtSlot := args.expiresAtSlot

/-- The receipt of the call answers the request that the call carried. -/
structure GeneratedReceipt (L : Ledger) (a : ExecuteEngineGeneratedProbeV0)
    (args : ExecuteEngineGeneratedProbeV0Args) (d : EnvelopeData) (c : EngineCall CoreState)
    (receipt : Wire.Generated.EngineReceipt) : Prop where
  returned : Returned Generated.config L a.market.key c (Wire.Generated.encodeReceipt receipt)
  digest : ∃ fee payloadHash, fee.toNat = ceilFee args.amountIn.toNat 30 ∧
    Wire.Generated.computePayloadHash args.opaquePayload = .ok payloadHash ∧
    Wire.Generated.computeRequestHash (Generated.requestBinding a d args fee
      args.expectedCapabilityHash payloadHash) = .ok receipt.requestHash
  request : ∃ count request, count.toNat = a.remainingAccounts.length ∧
    Wire.Generated.EngineRequest.new receipt.requestHash a.market.key a.domain.key
      d.market.engineRevision args.amountIn d.domain.accountedA d.domain.accountedB count
      args.expectedCapabilityHash args.opaquePayload = .ok request ∧
    Wire.Generated.encodeEvaluateInstruction request = .ok c.instruction.data

private theorem generated_execute_delivers {env : Env Generated.config}
    {a : ExecuteEngineGeneratedProbeV0} {args : ExecuteEngineGeneratedProbeV0Args}
    {w w' : Core.World} {u : Unit}
    (h : (Generated.handleExecuteEngineGeneratedProbeV0 env a args).run w = (.ok u, w')) :
    ∃ d c receipt, Bound Generated.config w.ledger a.toEnvelope d ∧
      Delivered Generated.config w w' a.toEnvelope (generatedLimits args) env.slot
        receipt.amountOut [c] ∧
      GeneratedReceipt w.ledger a args d c receipt := by
  obtain ⟨d, after, call, receipt, plan, hg⟩ := Generated.execute_ok h
  obtain ⟨data, ⟨c, hix, -, hreturned, hcalls⟩, hencode, hhash⟩ := hg.received
  obtain ⟨hpositive, hminimum, -⟩ := hg.accepted
  have hbound := hg.accounts.bound
  have hfee : call.protocolFee.toNat = ceilFee args.amountIn.toNat 30 :=
    (congrArg UInt64.toNat hg.protocolFee).symm.trans hg.executed.fee
  have hmaxFee := UInt64.le_iff_toNat_le.mp hg.called.maxFee
  have hmaxTotal := UInt64.le_iff_toNat_le.mp hg.called.maxTotal
  rw [hg.called.total, hfee] at hmaxTotal
  rw [hfee] at hmaxFee
  refine ⟨d, c, receipt, hbound, ?_, ?_⟩
  · constructor
    · exact hg.called.slot
    · exact hmaxTotal
    · exact hmaxFee
    · exact hpositive
    · exact hminimum
    · rw [← hg.amountOut]
      exact executed_moved hg.executed
    · exact hcalls
    · intro k hk hset hd hf
      have hwrite := hk c (List.mem_singleton.mpr rfl)
      rw [hix] at hwrite
      exact hg.executed.frame hwrite hset hd hf
  · constructor
    · refine returned_of_bound hbound ?_ hreturned hencode
      rw [hix, hg.called.programId]
    · refine ⟨call.protocolFee, call.payloadHash, hfee, hg.called.payloadHash, ?_⟩
      rw [hhash, ← hg.called.capabilityHash, ← hg.called.binding]
      exact hg.called.requestHash
    · obtain ⟨request, hnew, hdata⟩ := hg.called.request
      refine ⟨call.opaqueAccountCount, request, hg.called.count, ?_, ?_⟩
      · rw [hhash, ← hg.called.capabilityHash]
        exact hnew
      · rw [hix]
        exact hdata

def routedLimits (args : ExecuteCallbackAuthenticatedProbeV0Args) : Limits where
  amountIn := args.amountIn
  maxTotalInputDebit := args.maxTotalInputDebit
  minOutputCredit := args.minOutputCredit
  maxProtocolFee := args.maxProtocolFee
  expiresAtSlot := args.expiresAtSlot

/-- The receipt of the call answers the phase of the intent that the call carried. -/
structure PhaseReceipt (L : Ledger) (a : ExecuteCallbackAuthenticatedProbeV0) (d : EnvelopeData)
    (args : ExecuteCallbackAuthenticatedProbeV0Args) (i : Routed.AuthenticatedIntent)
    (phase : UInt8) (c : EngineCall CoreState) (receipt : Wire.Routed.EngineReceipt) : Prop where
  returned : Returned Routed.config L a.market.key c (Wire.Routed.encodeReceipt receipt)
  digest : ∃ request context preSequence capability,
    Routed.RequestOk a d args i phase context preSequence capability request ∧
    Wire.Routed.computeExecutionDigest request.binding = .ok receipt.executionDigest ∧
    Wire.Routed.encodeEngineInstruction request = .ok c.instruction.data
  receiptPhase : receipt.phase = phase
  intentDigest : receipt.intentDigest = i.intentDigest

/-- The calls of an execution and their receipts: one, or a preparation and its commit. -/
inductive PhaseReceipts (L : Ledger) (a : ExecuteCallbackAuthenticatedProbeV0) (d : EnvelopeData)
    (args : ExecuteCallbackAuthenticatedProbeV0Args) (i : Routed.AuthenticatedIntent)
    (amountOut : UInt64) : List (EngineCall CoreState) → Prop
  | single {c receipt} (timing : args.timingMode = timingSingle)
    (transition : PhaseReceipt L a d args i phaseTransition c receipt)
    (amount : receipt.amountOut = amountOut) : PhaseReceipts L a d args i amountOut [c]
  | prepareCommit {c c' receipt receipt'} (timing : args.timingMode = timingPrepareCommit)
    (prepare : PhaseReceipt L a d args i phasePrepare c receipt)
    (commit : PhaseReceipt L a d args i phaseCommit c' receipt')
    (amount : receipt.amountOut = amountOut) (amount' : receipt'.amountOut = amountOut) :
    PhaseReceipts L a d args i amountOut [c, c']

private theorem phaseReceipt_of_accepted {L : Ledger} {w w' : Core.World}
    {a : ExecuteCallbackAuthenticatedProbeV0} {d : EnvelopeData}
    {args : ExecuteCallbackAuthenticatedProbeV0Args} {i : Routed.AuthenticatedIntent}
    {phase : UInt8} {mode : Routed.CapabilityMode} {context : Hash} {preSequence : UInt64}
    {callback : AccountInfo} {request : Wire.Routed.EngineRequest}
    {receipt : Wire.Routed.EngineReceipt} {c : EngineCall CoreState}
    (hb : Bound Routed.config L a.toEnvelope d)
    (h : Routed.PhaseAccepted w w' a d args i phase mode context preSequence callback request
      receipt c) : PhaseReceipt L a d args i phase c receipt := by
  obtain ⟨data, hreturned, hencode⟩ := h.called.returned
  obtain ⟨capability, hrequest⟩ := h.requested
  constructor
  · exact returned_of_bound hb h.called.programId hreturned hencode
  · refine ⟨request, context, preSequence, capability, hrequest, ?_, h.called.data⟩
    rw [h.receiptExecution]
    exact hrequest.digest
  · exact h.receiptPhase
  · exact h.receiptIntent

/-- An account that no phase was given to write and no transfer named is as it was. -/
theorem phases_frame {env : Env Routed.config} {w w₁ w₂ w₃ w' : Core.World}
    {a : ExecuteCallbackAuthenticatedProbeV0} {args : ExecuteCallbackAuthenticatedProbeV0Args}
    {x : Routed.Stages} {k : Pubkey}
    (h : Routed.CallbackAuthenticated env w w₁ w₂ w₃ w' a args x) (hcommit : w₃.ledger k = w₂.ledger k)
    (hk : (x.call.instruction.privileges Routed.ID).writable k = false)
    (hset : k ∉ a.toEnvelope.tokenKeys) (hd : k ≠ a.domain.key) (hf : k ≠ a.feeLedger.key) :
    w'.ledger k = w.ledger k := by
  have hprimary : w₁.ledger k = w.ledger k := h.primary.called.confined.frame k hk
  have hsettled : w₂.ledger k = w₁.ledger k := h.settled.frame k hset
  have hstored : accountedLedger w₃.ledger a.toEnvelope x.d x.settlement.post.a x.settlement.post.b
      x.settlement.post.feeA k = w₃.ledger k := accountedLedger_of_ne hd hf
  rw [h.stored]
  exact hstored.trans (hcommit.trans (hsettled.trans hprimary))

private theorem routed_execute_delivers {env : Env Routed.config}
    {a : ExecuteCallbackAuthenticatedProbeV0}
    {args : ExecuteCallbackAuthenticatedProbeV0Args} {w w' : Core.World} {u : Unit}
    (h : (Routed.handleExecuteCallbackAuthenticatedProbeV0 env a args).run w = (.ok u, w')) :
    ∃ d phase i amountOut calls, Bound Routed.config w.ledger a.toEnvelope d ∧
      Routed.IntentOk w.ledger a d args phase i ∧
      Delivered Routed.config w w' a.toEnvelope (routedLimits args) env.slot amountOut calls ∧
      PhaseReceipts w.ledger a d args i amountOut calls := by
  obtain ⟨w₁, w₂, w₃, x, hx⟩ := Routed.execute_ok h
  obtain ⟨hpositive, hminimum, -⟩ := hx.accepted
  have hbound := hx.accounts.bound
  have hamount := hx.settlement.amountOut
  have hfee : x.intent.protocolFee.toNat = ceilFee args.amountIn.toNat 30 :=
    (congrArg UInt64.toNat hx.settlement.protocolFee).symm.trans hx.executed.fee
  have hmaxFee := UInt64.le_iff_toNat_le.mp hx.intent.maxFee
  have hmaxTotal := UInt64.le_iff_toNat_le.mp hx.intent.maxTotal
  rw [hx.intent.total, hfee] at hmaxTotal
  rw [hfee] at hmaxFee
  have hmoved := executed_moved hx.executed
  have hdelivered : ∀ calls, engineCalls w'.log = engineCalls w.log ++ calls →
      x.call ∈ calls → (∀ k, (∀ c ∈ calls, (c.instruction.privileges Routed.ID).writable k = false) →
        w₃.ledger k = w₂.ledger k) →
      Delivered Routed.config w w' a.toEnvelope (routedLimits args) env.slot x.receipt.amountOut
        calls := by
    intro calls hcalls hmem hcommit
    constructor
    · exact hx.terms.slot
    · exact hmaxTotal
    · exact hmaxFee
    · exact hpositive
    · exact hminimum
    · rw [← hamount]
      exact hmoved
    · exact hcalls
    · intro k hk hset hd hf
      exact phases_frame hx (hcommit k hk) (hk x.call hmem) hset hd hf
  have hprimary := hx.primary
  refine ⟨x.d, x.phase, x.intent, x.receipt.amountOut, ?_⟩
  obtain ⟨event, hlog, -⟩ := hx.emitted
  have hcalls₂ : engineCalls w₂.log = engineCalls w.log ++ [x.call] := by
    rw [hx.calls₂, hprimary.called.calls]
  have hcalls' : engineCalls w'.log = engineCalls w₃.log := by
    rw [hlog, engineCalls_append]
    simp
  rcases hx.committed with ⟨htiming, rfl⟩ | ⟨htiming, request, receipt, c, hc⟩
  · refine ⟨[x.call], hbound, hx.intent, ?_, ?_⟩
    · refine hdelivered _ (hcalls'.trans hcalls₂) (List.mem_singleton.mpr rfl) ?_
      intro k _
      rfl
    · have hphase : x.phase = phaseTransition := by
        rcases Routed.primaryPhase_ok hx.terms.phase with ⟨-, hp⟩ | ⟨hprepare, -⟩
        · exact hp
        · rw [htiming] at hprepare
          exact absurd hprepare (by decide)
      rw [hphase] at hprimary
      exact .single htiming (phaseReceipt_of_accepted hbound hprimary) rfl
  · refine ⟨[x.call, c], hbound, hx.intent, ?_, ?_⟩
    · refine hdelivered _ ?_ List.mem_cons_self ?_
      · rw [hcalls', hc.accepted.called.calls, hcalls₂, List.append_assoc]
        rfl
      · intro k hk
        exact hc.accepted.called.confined.frame k (hk c (by simp))
    · have hphase : x.phase = phasePrepare := by
        rcases Routed.primaryPhase_ok hx.terms.phase with ⟨hsingle, -⟩ | ⟨-, hp⟩
        · rw [htiming] at hsingle
          exact absurd hsingle (by decide)
        · exact hp
      rw [hphase] at hprimary
      exact .prepareCommit htiming (phaseReceipt_of_accepted hbound hprimary)
        (phaseReceipt_of_accepted hbound hc.accepted) rfl hc.amountOut

/-- In every Core, an execution that succeeds kept the user's limits and moved exactly the amounts,
whatever its engine did. -/
theorem execute_within_limits :
    (∀ (env : Env Root.config) (a : ExecuteEngineProbeV0) (args : ExecuteEngineProbeV0Args)
      (w w' : Core.World), (Root.handleExecuteEngineProbeV0 env a args).run w = (.ok (), w') →
      ∃ d c receipt, Bound Root.config w.ledger a.toEnvelope d ∧
        Delivered Root.config w w' a.toEnvelope (rootLimits args) env.slot args.amountOut [c] ∧
        RootReceipt w.ledger a args d c receipt) ∧
    (∀ (env : Env Generated.config) (a : ExecuteEngineGeneratedProbeV0)
      (args : ExecuteEngineGeneratedProbeV0Args) (w w' : Core.World),
      (Generated.handleExecuteEngineGeneratedProbeV0 env a args).run w = (.ok (), w') →
      ∃ d c receipt, Bound Generated.config w.ledger a.toEnvelope d ∧
        Delivered Generated.config w w' a.toEnvelope (generatedLimits args) env.slot
          receipt.amountOut [c] ∧
        GeneratedReceipt w.ledger a args d c receipt) ∧
    ∀ (env : Env Routed.config) (a : ExecuteCallbackAuthenticatedProbeV0)
      (args : ExecuteCallbackAuthenticatedProbeV0Args) (w w' : Core.World),
      (Routed.handleExecuteCallbackAuthenticatedProbeV0 env a args).run w = (.ok (), w') →
      ∃ d phase i amountOut calls, Bound Routed.config w.ledger a.toEnvelope d ∧
        Routed.IntentOk w.ledger a d args phase i ∧
        Delivered Routed.config w w' a.toEnvelope (routedLimits args) env.slot amountOut calls ∧
        PhaseReceipts w.ledger a d args i amountOut calls := by
  refine ⟨?_, ?_, ?_⟩
  · intro env a args w w' h
    exact root_execute_delivers h
  · intro env a args w w' h
    exact generated_execute_delivers h
  · intro env a args w w' h
    exact routed_execute_delivers h

end Receipts

section Sample

open Core.Sample

/-- The world after the sample execution of the root Core. -/
def rootExecuted : Core.World :=
  ((@Root.handleExecuteEngineProbeV0 Root.Sample.crypto Root.Sample.env
    (Root.Sample.execute Root.Sample.market) Root.Sample.executeArgs).run Root.Sample.funded).2

def generatedExecuted : Core.World :=
  ((@Generated.handleExecuteEngineGeneratedProbeV0 Generated.Sample.crypto Generated.Sample.env
    Generated.Sample.execute Generated.Sample.executeArgs).run
      (world (Generated.Sample.live 0))).2

private theorem root_sample_executes : (@Root.handleExecuteEngineProbeV0 Root.Sample.crypto
    Root.Sample.env (Root.Sample.execute Root.Sample.market) Root.Sample.executeArgs).run
      Root.Sample.funded = (.ok (), rootExecuted) :=
  Exec.run_of_fst (by decide +kernel)

private theorem generated_sample_executes : (@Generated.handleExecuteEngineGeneratedProbeV0
    Generated.Sample.crypto Generated.Sample.env Generated.Sample.execute
    Generated.Sample.executeArgs).run (world (Generated.Sample.live 0)) =
      (.ok (), generatedExecuted) :=
  Exec.run_of_fst (by decide +kernel)

theorem execute_within_limits_sample :
    Falls Root.Sample.funded.ledger rootExecuted.ledger sourceA 11 ∧
    Falls (world (Generated.Sample.live 0)).ledger generatedExecuted.ledger sourceA 101 ∧
    Falls (Routed.Sample.authorized timingPrepareCommit Routed.Sample.twoPhase).ledger
      (Routed.Sample.executed timingPrepareCommit Routed.Sample.twoPhase).ledger sourceA 101 := by
  refine ⟨?_, ?_, ?_⟩
  · have hrun := root_sample_executes
    have hsource : (Root.Sample.execute Root.Sample.market).userSourceA.key = sourceA := rfl
    have hamount : Root.Sample.executeArgs.amountIn = 10 := rfl
    generalize Root.Sample.funded = w at hrun ⊢
    generalize rootExecuted = w' at hrun ⊢
    generalize Root.Sample.execute Root.Sample.market = a at hrun hsource
    generalize Root.Sample.executeArgs = args at hrun hamount
    generalize Root.Sample.env = env at hrun
    obtain ⟨d, c, receipt, -, hdelivered, -⟩ :=
      (@execute_within_limits Root.Sample.crypto).1 env a args w w' hrun
    have hfalls := hdelivered.moved.source
    unfold rootLimits at hfalls
    dsimp only at hfalls
    rw [hsource, hamount] at hfalls
    exact hfalls
  · have hrun := generated_sample_executes
    have hsource : Generated.Sample.execute.userSourceA.key = sourceA := rfl
    have hamount : Generated.Sample.executeArgs.amountIn = 100 := rfl
    generalize world (Generated.Sample.live 0) = w at hrun ⊢
    generalize generatedExecuted = w' at hrun ⊢
    generalize Generated.Sample.execute = a at hrun hsource
    generalize Generated.Sample.executeArgs = args at hrun hamount
    generalize Generated.Sample.env = env at hrun
    obtain ⟨d, c, receipt, -, hdelivered, -⟩ :=
      (@execute_within_limits Generated.Sample.crypto).2.1 env a args w w' hrun
    have hfalls := hdelivered.moved.source
    unfold generatedLimits at hfalls
    dsimp only at hfalls
    rw [hsource, hamount] at hfalls
    exact hfalls
  · have hrun := Routed.sample_executes
    unfold Routed.Sample.opExecute Routed.Op.handle at hrun
    dsimp only at hrun
    have hsource : (Routed.Sample.execute Routed.Sample.twoPhase).userSourceA.key = sourceA := rfl
    have hamount : (Routed.Sample.executeArgs timingPrepareCommit
        Routed.Sample.twoPhase).amountIn = 100 := rfl
    generalize Routed.Sample.authorized timingPrepareCommit Routed.Sample.twoPhase = w at hrun ⊢
    generalize Routed.Sample.executed timingPrepareCommit Routed.Sample.twoPhase = w' at hrun ⊢
    generalize Routed.Sample.execute Routed.Sample.twoPhase = a at hrun hsource
    generalize Routed.Sample.executeArgs timingPrepareCommit Routed.Sample.twoPhase = args
      at hrun hamount
    generalize Routed.Sample.env = env at hrun
    obtain ⟨d, phase, i, amountOut, calls, -, -, hdelivered, -⟩ :=
      (@execute_within_limits Routed.Sample.crypto).2.2 env a args w w' hrun
    have hfalls := hdelivered.moved.source
    unfold routedLimits at hfalls
    dsimp only at hfalls
    rw [hsource, hamount] at hfalls
    exact hfalls

end Sample

end ProgrammableSolana.Cores
