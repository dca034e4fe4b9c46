import ProgrammableSolana.Routed.Phases
import ProgrammableSolana.Routed.Runs

/-! The Core and the reference engine agree on the executions that go through: those that pass the
Core's checks and that the engine can quote, in both timing modes. -/
namespace ProgrammableSolana.Routed

open ProgrammableSolana.Lib ProgrammableSolana.Solana ProgrammableSolana.Core
open ProgrammableSolana.Engines
open ProgrammableSolana.Wire.Routed (timingSingle timingPrepareCommit phaseTransition phasePrepare
  phaseCommit)

section Agreement

variable [Crypto]

/-- The engine of the market is the reference engine, ready for this revision of the market and for
the sequence the execution expects, and the settlement has a digest that can be committed. -/
structure Hosted (env : Env config) (w : Core.World) (a : ExecuteCallbackAuthenticatedProbeV0)
    (args : ExecuteCallbackAuthenticatedProbeV0Args) (helper : Callee CoreState config.ID)
    (m : MarketV0) (s : RoutedPlan.EngineState) : Prop where
  market : w.ledger.state? config.ID a.market.key = some (.market m)
  program : m.engineProgram = RoutedPlan.ID
  loaded : RoutedPlan.loadEngineState w.ledger m.engineState = .ok s
  stateMarket : s.market = a.market.key
  revision : s.revision = m.engineRevision
  timing : s.timingMode = args.timingMode
  mode : s.mode = RoutedPlan.modeAccept
  sequence : s.sequence = args.expectedEngineSequence
  fits : s.sequence.toNat + 1 < 2 ^ 64
  callee : env.callee = RoutedPlan.respond helper
  payload : args.opaquePayload.head? ≠ some helperPayloadTag
  supplyA : totalBalance w.ledger m.mintA < 2 ^ 64
  supplyB : totalBalance w.ledger m.mintB < 2 ^ 64
  digest : ((reachSettlement env a args).run w).1 ≠ .ok (Bytes.zero 32)

variable {env : Env config} {w w₁ : Core.World} {a : ExecuteCallbackAuthenticatedProbeV0}
  {args : ExecuteCallbackAuthenticatedProbeV0Args} {helper : Callee CoreState config.ID}
  {m : MarketV0} {s : RoutedPlan.EngineState} {p : PreparedExecution} {q : CpmmQuote}

theorem engineState_untouched {L : Ledger} {d : EnvelopeData} (h : AccountsOk L a d) :
    a.engineState.key ∉ a.toEnvelope.tokenKeys ∧ a.engineState.key ≠ a.domain.key ∧
      a.engineState.key ≠ a.feeLedger.key := by
  have hroles := h.distinct
  simp only [ExecuteCallbackAuthenticatedProbeV0.fixedEnvelopeKeys, List.nodup_cons, List.mem_cons,
    List.not_mem_nil, or_false, not_or] at hroles
  obtain ⟨-, hd, hf, -, -, hs, ht, hva, hvb, hfv, -⟩ := hroles
  refine ⟨?_, fun heq => ?_, fun heq => ?_⟩
  · intro hmem
    simp only [Envelope.tokenKeys, List.mem_cons, List.not_mem_nil, or_false] at hmem
    rcases hmem with heq | heq | heq | heq | heq
    · exact hs.2.2.2.2.2.1 heq.symm
    · exact ht.2.2.2.2.1 heq.symm
    · exact hva.2.2.2.1 heq.symm
    · exact hvb.2.2.1 heq.symm
    · exact hfv.2.1 heq.symm
  · exact hd.2.2.2.2.2.2.2.2.2.1 heq.symm
  · exact hf.2.2.2.2.2.2.2.2.1 heq.symm

private theorem engineState_ne_callbacks {L : Ledger} {d : EnvelopeData} (h : AccountsOk L a d) :
    a.engineState.key ≠ a.primaryCallback.key ∧ a.engineState.key ≠ a.commitCallback.key := by
  have hroles := h.distinct
  simp only [ExecuteCallbackAuthenticatedProbeV0.fixedEnvelopeKeys, List.nodup_cons, List.mem_cons,
    List.not_mem_nil, or_false, not_or] at hroles
  obtain ⟨-, -, -, -, -, -, -, -, -, -, -, he, -⟩ := hroles
  exact ⟨he.2.1, he.2.2.1⟩

/-- What preparing an execution established, next to what the checks of it did. -/
structure PreparedOk (env : Env config) (L : Ledger) (a : ExecuteCallbackAuthenticatedProbeV0)
    (args : ExecuteCallbackAuthenticatedProbeV0Args) (p : PreparedExecution) : Prop where
  ready : Ready env L a p.d args p.phase
  intent : IntentOk L a p.d args p.phase p.intent
  request : RequestOk a p.d args p.intent p.phase (Bytes.zero 32) args.expectedEngineSequence
    p.primaryCapabilityHash p.primaryRequest
  capability : Wire.Routed.computeCapabilityHash a.engineProgram.key
    (capabilityDescriptors L a.engineState p.intent.opaqueDescriptors (primaryMode p.phase)) =
      .ok p.primaryCapabilityHash
  encoded : ∃ data, Wire.Routed.encodeEngineInstruction p.primaryRequest = .ok data

theorem prepared_ok {L : Ledger} (h : prepareExecution env L a args = .ok p) :
    PreparedOk env L a args p := by
  have hparts := h
  simp only [prepareExecution, except_bind_ok_iff, except_pure_ok_iff, Prod.exists] at hparts
  obtain ⟨d, hload, phase, hvalid, i, -, capability, request, hrequest, rfl⟩ := hparts
  obtain ⟨-, -, hi, hok, hdata⟩ := prepareExecution_parts hload hvalid h
  have hcapability := (phaseRequest_ok hrequest).2
  exact ⟨ready_of_ok hload hvalid, hi, hok, hcapability, hdata⟩

theorem PreparedOk.market (h : PreparedOk env w.ledger a args p)
    (hh : Hosted env w a args helper m s) : p.d.market = m := by
  have hmarket := h.ready.accounts.bound.market
  have hm := hh.market
  rw [hmarket, Option.some.injEq, CoreState.market.injEq] at hm
  exact hm

/-- The engine state is in order for a phase, in a world where it has not changed. -/
theorem PreparedOk.fits (h : PreparedOk env w.ledger a args p)
    (hh : Hosted env w a args helper m s) {L : Ledger}
    (hstate : L a.engineState.key = w.ledger a.engineState.key) {phase : UInt8}
    (htiming : Wire.Routed.validatePhaseForTiming args.timingMode phase = .ok ()) :
    StateFits L a p.d s phase s.sequence := by
  have hm := h.market hh
  have hbound := h.ready.accounts.bound
  constructor
  · rw [hbound.engineProgram, hm, hh.program]
  · rw [RoutedPlan.loadEngineState_congr hstate, hbound.engineState, hm]
    exact hh.loaded
  · exact hh.stateMarket
  · rw [hm]
    exact hh.revision
  · exact hh.mode
  · rw [hh.timing]
    exact htiming
  · rfl
  · exact hh.fits

omit [Crypto] in
private theorem primary_fits {timingMode phase : UInt8} (h : primaryPhase timingMode = .ok phase) :
    Wire.Routed.validatePhaseForTiming timingMode phase = .ok () := by
  rcases primaryPhase_ok h with ⟨rfl, rfl⟩ | ⟨rfl, rfl⟩
  · decide
  · decide

theorem PreparedOk.asked (h : PreparedOk env w.ledger a args p)
    (hh : Hosted env w a args helper m s) :
    PhaseAsked w.ledger w.ledger a p.d args p.intent p.phase (Bytes.zero 32)
      args.expectedEngineSequence a.primaryCallback p.intent.primaryCallback
      p.primaryCapabilityHash p.primaryRequest s := by
  have hr := h.ready
  have hi := h.intent
  have hfits := h.fits hh rfl (primary_fits hr.terms.phase)
  rw [hh.sequence] at hfits
  constructor
  · exact .refl _
  · exact hr.engineState
  · exact hr.stateWritable
  · exact hi.admitted
  · exact hi.count
  · constructor
    · exact hi.primaryCallback
    · exact hi.primaryKey
    · exact hr.primaryCallback
    · simp [ExecuteCallbackAuthenticatedProbeV0.fixedEnvelopeKeys]
    · exact (engineState_ne_callbacks hr.accounts).1
  · exact h.request
  · exact h.capability
  · exact hfits
  · exact hr.terms.payload
  · exact hh.payload

/-- The Core may call the engine of a hosted execution, also once tokens have moved. -/
theorem PreparedOk.callable (h : PreparedOk env w.ledger a args p)
    (hh : Hosted env w a args helper m s) {L : Ledger} (hsame : SameOwnership w.ledger L) :
    Callable env L a helper := by
  have hm := h.market hh
  have hbound := h.ready.accounts.bound
  have hprogram : a.engineProgram.key = RoutedPlan.ID := by
    rw [hbound.engineProgram, hm, hh.program]
  constructor
  · exact hh.callee
  · rw [hsame.executable]
    exact h.ready.engineProgram
  · exact hbound.engineNotCore
  · rw [hsame.owner, hbound.engineStateOwner, hprogram]

omit [Crypto] in
private theorem phaseReceipt_sequence {request : Wire.Routed.EngineRequest} {amountOut : UInt64}
    (hfits : s.sequence.toNat + 1 < 2 ^ 64) :
    SequenceOk request.binding.phase s.sequence
      (phaseReceipt s request amountOut).stateSequence := by
  have hnext : (s.sequence + 1).toNat = s.sequence.toNat + 1 := by
    have hadd : checkedAdd s.sequence 1 = some (s.sequence + 1) := if_pos hfits
    exact checkedAdd_eq_some.mp hadd
  unfold SequenceOk
  show (stateAfter s request amountOut).sequence.toNat = _
  unfold stateAfter nextState
  by_cases hp : request.binding.phase = phasePrepare
  · rw [if_pos hp, if_pos hp]
  · rw [if_neg hp, if_neg hp]
    exact hnext

theorem PreparedOk.receipt_bound (h : PreparedOk env w.ledger a args p)
    (hh : Hosted env w a args helper m s) (amountOut : UInt64) :
    validateReceiptBinding (phaseReceipt s p.primaryRequest amountOut) p.primaryRequest p.phase
        p.intent.intentDigest = .ok () ∧
      validatePrimarySequence p.phase args.expectedEngineSequence
        (phaseReceipt s p.primaryRequest amountOut).stateSequence = .ok () := by
  constructor
  · rw [validateReceiptBinding_ok_iff]
    exact ⟨h.request.phase, h.request.intentDigest, rfl⟩
  · rw [validatePrimarySequence_ok_iff, ← hh.sequence, ← h.request.phase]
    exact phaseReceipt_sequence hh.fits

theorem PreparedOk.below (h : PreparedOk env w.ledger a args p)
    (hh : Hosted env w a args helper m s)
    (hq : RoutedPlan.quoteExactIn p.d.domain.accountedA p.d.domain.accountedB args.amountIn
      s.lpFeeBps = .ok q)
    (hmin : ¬ args.minOutputCredit ≤ q.amountOut) :
    acceptPrimary args p (phaseReceipt s p.primaryRequest q.amountOut) =
      .error (.core .outputBelowUserMinimum) := by
  obtain ⟨-, -, -, -, -, hpos, -⟩ := quoteExactIn_ok hq
  have hnonzero : 0 < q.amountOut := UInt64.lt_iff_toNat_lt.mpr hpos
  obtain ⟨hbinding, hsequence⟩ := h.receipt_bound hh q.amountOut
  have hout : validateAmountOut (phaseReceipt s p.primaryRequest q.amountOut).amountOut
      args.minOutputCredit p.d.domain.accountedB = .error (.core .outputBelowUserMinimum) := by
    show validateAmountOut q.amountOut _ _ = _
    unfold validateAmountOut
    rw [require_of hnonzero, except_ok_bind, require_of_not hmin]
    rfl
  unfold acceptPrimary
  rw [hbinding, except_ok_bind, hsequence, except_ok_bind, hout]
  rfl

/-- An output that meets it is accepted, and settled under the terms of the intent. -/
theorem PreparedOk.accepted (h : PreparedOk env w.ledger a args p)
    (hh : Hosted env w a args helper m s)
    (hq : RoutedPlan.quoteExactIn p.d.domain.accountedA p.d.domain.accountedB args.amountIn
      s.lpFeeBps = .ok q)
    (hmin : args.minOutputCredit ≤ q.amountOut)
    (hs : Settleable config a.infos w₁.ledger a.toEnvelope p.d a.spendAuthority.key
      [p.intent.spendAuthority] (settleTerms args p.intent q.amountOut)) :
    ∃ receiptDigest settlement,
      acceptPrimary args p (phaseReceipt s p.primaryRequest q.amountOut) =
        .ok (receiptDigest, settlement) ∧
      settlement.terms args = settleTerms args p.intent q.amountOut := by
  obtain ⟨-, -, -, -, -, hpos, hlt⟩ := quoteExactIn_ok hq
  have hnonzero : 0 < q.amountOut := UInt64.lt_iff_toNat_lt.mpr hpos
  have hliquid : q.amountOut ≤ p.d.domain.accountedB := UInt64.le_iff_toNat_le.mpr hlt.le
  obtain ⟨hbinding, hsequence⟩ := h.receipt_bound hh q.amountOut
  have hout : validateAmountOut (phaseReceipt s p.primaryRequest q.amountOut).amountOut
      args.minOutputCredit p.d.domain.accountedB = .ok () :=
    validateAmountOut_ok_iff.mpr ⟨hnonzero, hmin, hliquid⟩
  obtain ⟨bytes, hbytes⟩ := (h.asked hh).receipt_encodes q.amountOut
  obtain ⟨digest, hdigest⟩ := Wire.Routed.computeReceiptDigest_succeeds hbytes
  obtain ⟨settlement, hsettlement, hterms⟩ := acceptSettlement_succeeds h.ready rfl hs hliquid
  refine ⟨digest, settlement, ?_, hterms⟩
  unfold acceptPrimary
  rw [hbinding, except_ok_bind, hsequence, except_ok_bind, hout, except_ok_bind,
    liftWire_ok_iff.mpr hdigest, except_ok_bind]
  show (acceptSettlement p.d args p.intent q.amountOut >>= _) = _
  rw [hsettlement]
  rfl

omit [Crypto] in
private theorem phaseLedger_loaded {L : Ledger} {key : Pubkey} {request : Wire.Routed.EngineRequest}
    {amountOut : UInt64} (hp : request.binding.phase ≠ phasePrepare) :
    RoutedPlan.loadEngineState (phaseLedger L key s request amountOut) key =
      .ok (nextState s request amountOut) := by
  unfold phaseLedger
  rw [if_neg hp]
  apply RoutedPlan.loadEngineState_stored
  exact Function.update_self _ _ _

variable {w₂ : Core.World} {digest : Hash}

theorem PreparedOk.asked_commit (h : PreparedOk env w.ledger a args p)
    (hh : Hosted env w a args helper m s) (hsame : SameOwnership w.ledger w₂.ledger)
    (hstate : w₂.ledger a.engineState.key = w.ledger a.engineState.key)
    (htiming : args.timingMode = timingPrepareCommit) {capability : Hash}
    {request : Wire.Routed.EngineRequest}
    (hrequest : phaseRequest w₂.ledger a p.d args p.intent phaseCommit .authorized digest
      s.sequence = .ok (capability, request)) :
    PhaseAsked w.ledger w₂.ledger a p.d args p.intent phaseCommit digest s.sequence
      a.commitCallback p.intent.commitCallback capability request s := by
  have hr := h.ready
  have hi := h.intent
  have hfits : Wire.Routed.validatePhaseForTiming args.timingMode phaseCommit = .ok () := by
    rw [htiming]
    decide
  constructor
  · exact hsame
  · exact hr.engineState
  · exact hr.stateWritable
  · exact hi.admitted
  · exact hi.count
  · constructor
    · exact hi.commitCallback
    · exact hi.commitKey
    · exact hr.commitCallback
    · simp [ExecuteCallbackAuthenticatedProbeV0.fixedEnvelopeKeys]
    · exact (engineState_ne_callbacks hr.accounts).2
  · exact (phaseRequest_ok hrequest).1
  · exact (phaseRequest_ok hrequest).2
  · exact h.fits hh hstate hfits
  · exact hr.terms.payload
  · exact hh.payload

theorem PreparedOk.committed (h : PreparedOk env w.ledger a args p)
    (hh : Hosted env w a args helper m s) (hsame : SameOwnership w.ledger w₂.ledger)
    (hstate : w₂.ledger a.engineState.key = w.ledger a.engineState.key)
    (htiming : args.timingMode = timingPrepareCommit)
    (hq : RoutedPlan.quoteExactIn p.d.domain.accountedA p.d.domain.accountedB args.amountIn
      s.lpFeeBps = .ok q)
    (hdigest : digest ≠ Bytes.zero 32) {receipt : Wire.Routed.EngineReceipt}
    (hout : receipt.amountOut = q.amountOut) (hsequence : receipt.stateSequence = s.sequence) :
    ∃ outcome w₃ request, (commit env a p.d args p.intent receipt digest).run w₂ =
        (.ok outcome, w₃) ∧
      w₃.ledger = phaseLedger w₂.ledger a.engineState.key s request q.amountOut ∧
      request.binding.phase = phaseCommit := by
  have hcontext : digest ≠ Bytes.zero 32 ↔ phaseCommit = phaseCommit := iff_of_true hdigest rfl
  obtain ⟨capability, request, data, hrequest, hdata⟩ := phaseRequest_succeeds h.ready h.intent hsame
    s.sequence (by decide) hcontext fun _ => rfl
  have hok := (phaseRequest_ok hrequest).1
  have hasked := h.asked_commit hh hsame hstate htiming hrequest
  obtain ⟨w₃, hinvoke, hledger⟩ := hasked.invoked h.intent (h.callable hh hsame) hdata hq
  have hmode : primaryMode phaseCommit = .authorized := by decide
  rw [hmode] at hinvoke
  have hbinding : validateReceiptBinding (phaseReceipt s request q.amountOut) request phaseCommit
      p.intent.intentDigest = .ok () :=
    validateReceiptBinding_ok_iff.mpr ⟨hok.phase, hok.intentDigest, rfl⟩
  have hnext : (phaseReceipt s request q.amountOut).stateSequence.toNat = s.sequence.toNat + 1 := by
    have hphase := @phaseReceipt_sequence s request q.amountOut hh.fits
    unfold SequenceOk at hphase
    rw [hok.phase] at hphase
    exact hphase
  have hadd : checkedAdd receipt.stateSequence 1 =
      some (phaseReceipt s request q.amountOut).stateSequence := by
    rw [hsequence, checkedAdd_eq_some, hnext]
    rfl
  obtain ⟨bytes, hbytes⟩ := hasked.receipt_encodes q.amountOut
  obtain ⟨receiptDigest, hreceiptDigest⟩ := Wire.Routed.computeReceiptDigest_succeeds hbytes
  refine ⟨⟨capability, request.executionDigest, receiptDigest,
    (phaseReceipt s request q.amountOut).stateSequence⟩, w₃, request, ?_, hledger, hok.phase⟩
  simp only [commit, capabilityDescriptors_drop, hsequence, Exec.bind_ok_iff, Exec.get_ok_iff,
    Exec.ofExcept_ok_iff, require_ok_iff, okOr_ok_iff, liftWire_ok_iff, Prod.exists]
  rw [hsequence] at hadd
  exact ⟨w₂, w₂, ⟨rfl, rfl⟩, capability, request, w₂, ⟨hrequest, rfl⟩, _, w₃, hinvoke, (), w₃,
    ⟨hbinding, rfl⟩, (), w₃, ⟨hout.symm, rfl⟩, _, w₃, ⟨hadd, rfl⟩, (), w₃, ⟨rfl, rfl⟩,
    receiptDigest, w₃, ⟨hreceiptDigest, rfl⟩, rfl⟩

omit [Crypto] in
private theorem phaseLedger_of_ne {L : Ledger} {key k : Pubkey} {request : Wire.Routed.EngineRequest}
    {amountOut : UInt64} (h : k ≠ key) : phaseLedger L key s request amountOut k = L k := by
  unfold phaseLedger
  split
  · rfl
  · exact Function.update_of_ne h _ _

omit [Crypto] in
/-- A PREPARE phase leaves the ledger as it was. -/
theorem phaseLedger_prepare {L : Ledger} {key : Pubkey} {request : Wire.Routed.EngineRequest}
    {amountOut : UInt64} (hp : request.binding.phase = phasePrepare) :
    phaseLedger L key s request amountOut = L := if_pos hp

/-- What follows the settlement of a quote goes through, and leaves the engine one sequence on. -/
theorem PreparedOk.finished (h : PreparedOk env w.ledger a args p)
    (hh : Hosted env w a args helper m s) {w₂ : Core.World}
    (hsame : args.timingMode = timingPrepareCommit → SameOwnership w.ledger w₂.ledger)
    (hledger : w₂.ledger a.engineState.key =
      phaseLedger w.ledger a.engineState.key s p.primaryRequest q.amountOut a.engineState.key)
    (hq : RoutedPlan.quoteExactIn p.d.domain.accountedA p.d.domain.accountedB args.amountIn
      s.lpFeeBps = .ok q)
    (hdigest : digest ≠ Bytes.zero 32) :
    ∃ outcome w₃ request, (commitPhase env a p.d args p.intent
        (phaseReceipt s p.primaryRequest q.amountOut) digest).run w₂ = (.ok outcome, w₃) ∧
      (∀ k, k ≠ a.engineState.key → w₃.ledger k = w₂.ledger k) ∧
      RoutedPlan.loadEngineState w₃.ledger a.engineState.key =
        .ok (nextState s request q.amountOut) := by
  have hphase := h.request.phase
  unfold commitPhase
  rcases primaryPhase_ok h.ready.terms.phase with ⟨htiming, hp⟩ | ⟨htiming, hp⟩
  · have hne : ¬ args.timingMode = timingPrepareCommit := by
      rw [htiming]
      decide
    have hnotPrepare : p.primaryRequest.binding.phase ≠ phasePrepare := by
      rw [hphase, hp]
      decide
    rw [if_neg hne]
    refine ⟨noCommit, w₂, p.primaryRequest, rfl, fun _ _ => rfl, ?_⟩
    rw [RoutedPlan.loadEngineState_congr hledger]
    exact phaseLedger_loaded hnotPrepare
  · have hprepare : p.primaryRequest.binding.phase = phasePrepare := hphase.trans hp
    have hsequence : (phaseReceipt s p.primaryRequest q.amountOut).stateSequence = s.sequence := by
      show (stateAfter s p.primaryRequest q.amountOut).sequence = s.sequence
      unfold stateAfter
      rw [if_pos hprepare]
    rw [phaseLedger_prepare hprepare] at hledger
    obtain ⟨outcome, w₃, request, hcommit, hledger₃, hcommitPhase⟩ :=
      h.committed hh (hsame htiming) hledger htiming hq hdigest rfl hsequence
    have hnotPrepare : request.binding.phase ≠ phasePrepare := by
      rw [hcommitPhase]
      decide
    rw [if_pos htiming]
    refine ⟨outcome, w₃, request, hcommit, ?_, ?_⟩
    · intro k hk
      rw [hledger₃]
      exact phaseLedger_of_ne hk
    · rw [hledger₃]
      exact phaseLedger_loaded hnotPrepare

/-- What an execution on the reference engine leaves behind: the settlement of its quote, between
engine calls that touch nothing but the state of the engine. -/
structure QuoteSettled (L L' : Ledger) (a : ExecuteCallbackAuthenticatedProbeV0)
    (args : ExecuteCallbackAuthenticatedProbeV0Args) (p : PreparedExecution)
    (s : RoutedPlan.EngineState) (amountOut : UInt64) (settlement : AcceptedSettlement)
    (after : EnvelopeData) : Prop where
  accepted : SettlementOk p.d args p.intent amountOut settlement
  cleared : after.userSourceA.delegate = none ∧ after.userSourceA.delegatedAmount = 0
  phases : ∃ L₁ L₂ L₃, (∀ k, k ≠ a.engineState.key → L₁ k = L k) ∧
    Settled L₁ L₂ a.toEnvelope p.d after a.spendAuthority.key (settlement.terms args) ∧
    SameOwnership L₁ L₂ ∧ (∀ k, k ≠ a.engineState.key → L₃ k = L₂ k) ∧
    L' = accountedLedger L₃ a.toEnvelope p.d settlement.postAccountedA settlement.postAccountedB
      settlement.postAccountedFeeA
  state : ∃ request, RoutedPlan.loadEngineState L' a.engineState.key =
    .ok (nextState s request amountOut)

/-- An execution that passed the Core's checks and can be quoted goes through, settles the quote and
moves the engine by one sequence. -/
theorem prepared_succeeds (hp : prepareExecution env w.ledger a args = .ok p)
    (hh : Hosted env w a args helper m s)
    (hq : RoutedPlan.quoteExactIn p.d.domain.accountedA p.d.domain.accountedB args.amountIn
      s.lpFeeBps = .ok q)
    (hmin : args.minOutputCredit ≤ q.amountOut) :
    ∃ w' settlement after,
      (handleExecuteCallbackAuthenticatedProbeV0 env a args).run w = (.ok (), w') ∧
      QuoteSettled w.ledger w'.ledger a args p s q.amountOut settlement after := by
  have h := prepared_ok hp
  have hi := h.intent
  have ha := h.ready.accounts
  have hm := h.market hh
  have hA := hh.supplyA
  have hB := hh.supplyB
  rw [← hm, ← ha.bound.mintAKey] at hA
  rw [← hm, ← ha.bound.mintBKey] at hB
  obtain ⟨-, -, -, -, -, -, hlt⟩ := quoteExactIn_ok hq
  have hliquid : q.amountOut ≤ p.d.domain.accountedB := UInt64.le_iff_toNat_le.mpr hlt.le
  obtain ⟨data, hdata⟩ := h.encoded
  obtain ⟨w₁, hinvoke, hledger₁⟩ :=
    (h.asked hh).invoked hi (h.callable hh (.refl _)) hdata hq
  obtain ⟨c, hcalled⟩ := invokeEnginePhase_ok hinvoke
  have hconf : Confined config.ID (a.engineWritable p.intent.opaqueDescriptors) w.ledger
      w₁.ledger := hcalled.confined_engine
  have hs := settleable h.ready hi hA hB hconf hliquid
  obtain ⟨receiptDigest, settlement, haccept, hterms⟩ := h.accepted hh hq hmin hs
  obtain ⟨after, w₂, hsettle, hsame₂⟩ := settleAuthenticatedIntent_succeeds hi ha.bound.feeBps
    h.ready.terms.amountIn hterms hs
  obtain ⟨digest, hdigest⟩ := Wire.Routed.computeSettlementDigest_succeeds (settlementBinding after
    args settlement p.intent.intentDigest p.primaryRequest.executionDigest receiptDigest)
  have hnonzero : digest ≠ Bytes.zero 32 := by
    intro hzero
    have hreach : (reachSettlement env a args).run w = (.ok digest, w₂) := by
      simp only [reachSettlement, Exec.bind_ok_iff, Exec.get_ok_iff, Exec.ofExcept_ok_iff,
        capabilityDescriptors_drop, liftWire_ok_iff]
      exact ⟨w, w, ⟨rfl, rfl⟩, p, w, ⟨hp, rfl⟩, _, w₁, hinvoke, _, w₁, ⟨haccept, rfl⟩, after, w₂,
        hsettle, hdigest, rfl⟩
    have hne := hh.digest
    rw [hreach] at hne
    exact hne (congrArg Except.ok hzero)
  obtain ⟨htoken, hdomain, hfee⟩ := engineState_untouched ha
  have htokens := tokensAt_of_confined ha.bound.tokensAt hconf (hi.engine_foreign ha)
  obtain ⟨hsettled, hcleared, -⟩ :=
    settleAuthenticatedIntent_ok hsettle htokens ha.tokenKeys_nodup
  have hkept : ∀ k, k ≠ a.engineState.key → w₁.ledger k = w.ledger k := by
    intro k hk
    rw [hledger₁]
    exact phaseLedger_of_ne hk
  have hwhole := hsame₂
  have hsame : args.timingMode = timingPrepareCommit → SameOwnership w.ledger w₂.ledger := by
    intro htiming
    have hprepare : p.primaryRequest.binding.phase = phasePrepare := by
      rcases primaryPhase_ok h.ready.terms.phase with ⟨ht, -⟩ | ⟨-, hphase⟩
      · rw [ht] at htiming
        exact absurd htiming (by decide)
      · exact h.request.phase.trans hphase
    rw [hledger₁, phaseLedger_prepare hprepare] at hsame₂
    exact hsame₂
  have hledger₂ : w₂.ledger a.engineState.key =
      phaseLedger w.ledger a.engineState.key s p.primaryRequest q.amountOut a.engineState.key := by
    rw [hsettled.frame _ htoken, hledger₁]
  obtain ⟨outcome, w₃, request, hcommit, hkept₃, hloaded⟩ :=
    h.finished hh hsame hledger₂ hq hnonzero
  have hrecorded : ∃ w', (recordExecution a args p (phaseReceipt s p.primaryRequest q.amountOut)
      receiptDigest settlement after digest outcome).run w₃ = (.ok (), w') :=
    recordExecution_succeeds hi.count
  obtain ⟨w', hrecord⟩ := hrecorded
  have hstored := (recordExecution_ok hrecord).1
  refine ⟨w', settlement, after, ?_, (acceptPrimary_ok haccept).2.2.2.2, hcleared,
    ⟨w₁.ledger, w₂.ledger, w₃.ledger, hkept, hsettled, hwhole, hkept₃, hstored⟩, request, ?_⟩
  · simp only [handleExecuteCallbackAuthenticatedProbeV0, Exec.bind_ok_iff, Exec.get_ok_iff,
      Exec.ofExcept_ok_iff, capabilityDescriptors_drop, liftWire_ok_iff]
    exact ⟨w, w, ⟨rfl, rfl⟩, p, w, ⟨hp, rfl⟩, _, w₁, hinvoke, _, w₁, ⟨haccept, rfl⟩, after, w₂,
      hsettle, digest, w₂, ⟨hdigest, rfl⟩, outcome, w₃, hcommit, hrecord⟩
  · have hkeep : w'.ledger a.engineState.key = w₃.ledger a.engineState.key := by
      rw [hstored]
      exact @accountedLedger_of_ne w₃.ledger a.toEnvelope p.d settlement.post _ hdomain hfee
    rw [RoutedPlan.loadEngineState_congr hkeep]
    exact hloaded

private theorem prepared_unquoted (hp : prepareExecution env w.ledger a args = .ok p)
    (hh : Hosted env w a args helper m s) {err : EngineError}
    (hq : RoutedPlan.quoteExactIn p.d.domain.accountedA p.d.domain.accountedB args.amountIn
      s.lpFeeBps = .error err) :
    (handleExecuteCallbackAuthenticatedProbeV0 env a args).run w =
      (.error (.runtime .calleeFailed), w) := by
  have h := prepared_ok hp
  obtain ⟨data, hdata⟩ := h.encoded
  have hinvoke := (h.asked hh).uninvoked h.intent (h.callable hh (.refl _)) hdata hq
  unfold handleExecuteCallbackAuthenticatedProbeV0
  rw [Exec.run_bind_of_ok (Exec.run_get w), hp, Exec.run_bind_of_ok (Exec.run_ofExcept _ _),
    capabilityDescriptors_drop]
  exact Exec.run_bind_of_error hinvoke

private theorem prepared_below (hp : prepareExecution env w.ledger a args = .ok p)
    (hh : Hosted env w a args helper m s)
    (hq : RoutedPlan.quoteExactIn p.d.domain.accountedA p.d.domain.accountedB args.amountIn
      s.lpFeeBps = .ok q)
    (hmin : ¬ args.minOutputCredit ≤ q.amountOut) :
    ∃ w', (handleExecuteCallbackAuthenticatedProbeV0 env a args).run w =
      (.error (.core .outputBelowUserMinimum), w') := by
  have h := prepared_ok hp
  obtain ⟨data, hdata⟩ := h.encoded
  obtain ⟨w₁, hinvoke, -⟩ := (h.asked hh).invoked h.intent (h.callable hh (.refl _)) hdata hq
  refine ⟨w₁, ?_⟩
  unfold handleExecuteCallbackAuthenticatedProbeV0
  rw [Exec.run_bind_of_ok (Exec.run_get w), hp, Exec.run_bind_of_ok (Exec.run_ofExcept _ _),
    capabilityDescriptors_drop, Exec.run_bind_of_ok hinvoke, h.below hh hq hmin]
  exact Exec.run_bind_of_error (Exec.run_ofExcept _ _)

/-- How an execution on the reference engine fails: a check of the Core before the engine is called,
the quote, or the user's minimum. -/
inductive Unquotable (env : Env config) (L : Ledger) (a : ExecuteCallbackAuthenticatedProbeV0)
    (args : ExecuteCallbackAuthenticatedProbeV0Args) (s : RoutedPlan.EngineState) : Error → Prop
  | checks {err : Error} (h : prepareExecution env L a args = .error err) :
      Unquotable env L a args s err
  | quote {p : PreparedExecution} {e : EngineError} (hp : prepareExecution env L a args = .ok p)
      (h : RoutedPlan.quoteExactIn p.d.domain.accountedA p.d.domain.accountedB args.amountIn
        s.lpFeeBps = .error e) : Unquotable env L a args s (.runtime .calleeFailed)
  | minimum {p : PreparedExecution} {q : CpmmQuote} (hp : prepareExecution env L a args = .ok p)
      (hq : RoutedPlan.quoteExactIn p.d.domain.accountedA p.d.domain.accountedB args.amountIn
        s.lpFeeBps = .ok q) (h : q.amountOut < args.minOutputCredit) :
      Unquotable env L a args s (.core .outputBelowUserMinimum)

/-- Every way a hosted execution ends. -/
theorem hosted_cases (hh : Hosted env w a args helper m s) :
    (∃ p q w' settlement after, prepareExecution env w.ledger a args = .ok p ∧
      RoutedPlan.quoteExactIn p.d.domain.accountedA p.d.domain.accountedB args.amountIn
        s.lpFeeBps = .ok q ∧ args.minOutputCredit ≤ q.amountOut ∧
      (handleExecuteCallbackAuthenticatedProbeV0 env a args).run w = (.ok (), w') ∧
      QuoteSettled w.ledger w'.ledger a args p s q.amountOut settlement after) ∨
    ∃ err w', Unquotable env w.ledger a args s err ∧
      (handleExecuteCallbackAuthenticatedProbeV0 env a args).run w = (.error err, w') := by
  cases hp : prepareExecution env w.ledger a args with
  | error err =>
    refine .inr ⟨err, w, .checks hp, ?_⟩
    unfold handleExecuteCallbackAuthenticatedProbeV0
    rw [Exec.run_bind_of_ok (Exec.run_get w), hp]
    exact Exec.run_bind_of_error (Exec.run_ofExcept _ _)
  | ok p =>
    cases hq : RoutedPlan.quoteExactIn p.d.domain.accountedA p.d.domain.accountedB args.amountIn
        s.lpFeeBps with
    | error e => exact .inr ⟨_, w, .quote hp hq, prepared_unquoted hp hh hq⟩
    | ok q =>
      by_cases hmin : args.minOutputCredit ≤ q.amountOut
      · obtain ⟨w', settlement, after, hrun, hsettled⟩ := prepared_succeeds hp hh hq hmin
        exact .inl ⟨p, q, w', settlement, after, rfl, hq, hmin, hrun, hsettled⟩
      · obtain ⟨w', hrun⟩ := prepared_below hp hh hq hmin
        have hlt : q.amountOut < args.minOutputCredit := UInt64.not_le.mp hmin
        exact .inr ⟨_, w', .minimum hp hq hlt, hrun⟩

theorem Hosted.served (hh : Hosted env w a args helper m s) (h : PreparedOk env w.ledger a args p) :
    Served env w a := by
  have hbound := h.ready.accounts.bound
  have hm := h.market hh
  refine ⟨?_, ⟨helper, hh.callee⟩, ?_⟩
  · rw [hbound.engineProgram, hm, hh.program]
  · intro s' hs'
    rw [hbound.engineState, hm, hh.loaded, Except.ok.injEq] at hs'
    rw [← hs', hh.mode]

/-- What a hosted execution settles is the quote of its engine. -/
theorem Hosted.settles (hh : Hosted env w a args helper m s) {w' : Core.World}
    (hrun : (handleExecuteCallbackAuthenticatedProbeV0 env a args).run w = (.ok (), w')) :
    ∃ w₁ w₂ w₃ x q, CallbackAuthenticated env w w₁ w₂ w₃ w' a args x ∧
      RoutedPlan.quoteExactIn x.d.domain.accountedA x.d.domain.accountedB args.amountIn
        s.lpFeeBps = .ok q ∧ x.settlement.amountOut = q.amountOut := by
  obtain ⟨w₁, w₂, w₃, x, hx⟩ := execute_ok hrun
  obtain ⟨capability, hprepared⟩ := hx.prepared
  have h := prepared_ok hprepared
  obtain ⟨c, cs, hcalls, hanswered⟩ := execute_answered hrun
  obtain ⟨state, q, hloaded, hq, hout⟩ :=
    hx.quoted (hh.served h) hcalls (hanswered c List.mem_cons_self)
  have hm : x.d.market = m := h.market hh
  have hstate : state = s := by
    have hs := hh.loaded
    rw [← hm, ← hx.accounts.bound.engineState, hloaded, Except.ok.injEq] at hs
    exact hs
  subst hstate
  exact ⟨w₁, w₂, w₃, x, q, hx, hq, hout⟩

end Agreement

/-- An execution on a market that the reference engine hosts goes through exactly if the Core's own
checks pass and the engine can quote it above the user's minimum, and fails for nothing else: no
check of the engine, in either timing mode, and none of the Core on its receipts. It then settles
the quote and moves the engine by one sequence. -/
theorem authenticated_iff_quoted [Crypto] (env : Env config) (w : Core.World)
    (a : ExecuteCallbackAuthenticatedProbeV0) (args : ExecuteCallbackAuthenticatedProbeV0Args)
    (helper : Callee CoreState config.ID) (m : MarketV0) (s : RoutedPlan.EngineState)
    (hh : Hosted env w a args helper m s) :
    ((∃ w', (handleExecuteCallbackAuthenticatedProbeV0 env a args).run w = (.ok (), w')) ↔
      ∃ p q, prepareExecution env w.ledger a args = .ok p ∧
        RoutedPlan.quoteExactIn p.d.domain.accountedA p.d.domain.accountedB args.amountIn
          s.lpFeeBps = .ok q ∧ args.minOutputCredit ≤ q.amountOut) ∧
    (∀ w', (handleExecuteCallbackAuthenticatedProbeV0 env a args).run w = (.ok (), w') →
      ∃ w₁ w₂ w₃ x q request, CallbackAuthenticated env w w₁ w₂ w₃ w' a args x ∧
        RoutedPlan.quoteExactIn x.d.domain.accountedA x.d.domain.accountedB args.amountIn
          s.lpFeeBps = .ok q ∧ x.settlement.amountOut = q.amountOut ∧
        RoutedPlan.loadEngineState w'.ledger m.engineState =
          .ok (nextState s request q.amountOut)) ∧
    (∀ err w', (handleExecuteCallbackAuthenticatedProbeV0 env a args).run w = (.error err, w') →
      Unquotable env w.ledger a args s err) ∧
    ∀ p, prepareExecution env w.ledger a args = .ok p →
      RoutedPlan.Authenticated w.ledger ⟨stateView a p.phase, callbackView a.primaryCallback⟩
        (phaseViews p.intent p.phase) p.primaryRequest.binding.phase p.primaryRequest s := by
  refine ⟨⟨?_, ?_⟩, ?_, ?_, ?_⟩
  · rintro ⟨w', hrun⟩
    rcases hosted_cases hh with ⟨p, q, -, -, -, hp, hq, hmin, -⟩ | ⟨err, w'', -, herr⟩
    · exact ⟨p, q, hp, hq, hmin⟩
    · rw [hrun] at herr
      cases herr
  · rintro ⟨p, q, hp, hq, hmin⟩
    obtain ⟨w', -, -, hrun, -⟩ := prepared_succeeds hp hh hq hmin
    exact ⟨w', hrun⟩
  · intro w' hrun
    obtain ⟨w₁, w₂, w₃, x, q, hx, hq, hout⟩ := hh.settles hrun
    obtain ⟨capability, hprepared⟩ := hx.prepared
    have hmin : args.minOutputCredit ≤ q.amountOut := by
      rw [← hout, hx.settlement.amountOut]
      exact hx.accepted.2.1
    obtain ⟨w'', _, _, hrun', hsettled⟩ := prepared_succeeds hprepared hh hq hmin
    obtain ⟨request, hnext⟩ := hsettled.state
    have hsame : w'' = w' := by
      rw [hrun, Prod.mk.injEq] at hrun'
      exact hrun'.2.symm
    have hm : x.d.market = m := (prepared_ok hprepared).market hh
    rw [hsame, hx.accounts.bound.engineState, hm] at hnext
    exact ⟨w₁, w₂, w₃, x, q, request, hx, hq, hout, hnext⟩
  · intro err w' hrun
    rcases hosted_cases hh with ⟨p, q, w'', -, -, -, -, -, hok, -⟩ | ⟨err', w'', hcause, herr⟩
    · rw [hrun] at hok
      cases hok
    · rw [hrun, Prod.mk.injEq, Except.error.injEq] at herr
      rw [herr.1]
      exact hcause
  · intro p hp
    exact ((prepared_ok hp).asked hh).authenticated

namespace Sample

open ProgrammableSolana.Core.Sample

attribute [local instance] crypto

theorem reached_digest : ((reachSettlement env (execute twoPhase)
    (executeArgs timingPrepareCommit twoPhase)).run
      (world (live timingPrepareCommit 0 twoPhase))).1 = .ok twoPhase.settlement := by
  decide +kernel

/-- The state of the engine before the sample execution. -/
def engineStateBefore : RoutedPlan.EngineState where
  authority := user
  market := market.market
  revision := 1
  lpFeeBps := 30
  timingMode := timingPrepareCommit
  sequence := 0
  lastIntentDigest := Bytes.zero 32
  lastPhaseContextDigest := Bytes.zero 32
  lastExecutionDigest := Bytes.zero 32
  lastAmountOut := 0
  lastPhase := RoutedPlan.noCompletedPhase
  mode := RoutedPlan.modeAccept

theorem hosted : Hosted env (world (live timingPrepareCommit 0 twoPhase)) (execute twoPhase)
    (executeArgs timingPrepareCommit twoPhase) (fun _ _ => none) data.market engineStateBefore where
  market := by decide +kernel
  program := rfl
  loaded := @RoutedPlan.loadEngineState_stored _ (live timingPrepareCommit 0 twoPhase) engineState
    engineStateBefore false rfl
  stateMarket := rfl
  revision := rfl
  timing := rfl
  mode := rfl
  sequence := rfl
  fits := by decide
  callee := rfl
  payload := by decide
  supplyA := sample_supply.1.trans_lt (by decide)
  supplyB := sample_supply.2.trans_lt (by decide)
  digest := by
    rw [reached_digest]
    decide

theorem authenticated_iff_quoted_sample : ∃ w' s',
    (handleExecuteCallbackAuthenticatedProbeV0 env (execute twoPhase)
      (executeArgs timingPrepareCommit twoPhase)).run (world (live timingPrepareCommit 0 twoPhase)) =
        (.ok (), w') ∧
    RoutedPlan.loadEngineState w'.ledger engineState = .ok s' ∧ s'.sequence = 1 := by
  obtain ⟨w', hrun⟩ : ∃ w', (handleExecuteCallbackAuthenticatedProbeV0 env (execute twoPhase)
      (executeArgs timingPrepareCommit twoPhase)).run (world (live timingPrepareCommit 0 twoPhase)) =
        (.ok (), w') := ⟨_, Exec.run_of_fst (by decide +kernel)⟩
  have hhosted := hosted
  have hkey : data.market.engineState = engineState := rfl
  have hsequence : engineStateBefore.sequence + 1 = 1 := by decide
  rw [← hkey]
  generalize world (live timingPrepareCommit 0 twoPhase) = w at hrun hhosted ⊢
  generalize execute twoPhase = a at hrun hhosted ⊢
  generalize executeArgs timingPrepareCommit twoPhase = args at hrun hhosted ⊢
  generalize env = env at hrun hhosted ⊢
  generalize data.market = m at hhosted ⊢
  generalize engineStateBefore = s at hhosted hsequence
  obtain ⟨-, hexecuted, -⟩ := authenticated_iff_quoted env w a args _ m s hhosted
  obtain ⟨w₁, w₂, w₃, x, q, request, -, -, -, hnext⟩ := hexecuted w' hrun
  exact ⟨w', _, hrun, hnext, hsequence⟩

end Sample

end ProgrammableSolana.Routed
