import ProgrammableSolana.Core.Presented
import ProgrammableSolana.Routed.Progress
import ProgrammableSolana.Routed.Reference
import ProgrammableSolana.Wire.RoutedFormat

/-! One engine phase against the reference engine: no check of the engine on a call of the Core's
making fails, and the receipt is the one the Core waits for. -/
namespace ProgrammableSolana.Routed

open ProgrammableSolana.Lib ProgrammableSolana.Solana ProgrammableSolana.Core
open ProgrammableSolana.Engines
open ProgrammableSolana.Wire.Routed (timingSingle timingPrepareCommit phaseTransition phasePrepare
  phaseCommit)

section Phase

variable [Crypto]

/-- The callback account of a phase: the address the intent has for it, next to the engine state. -/
structure CallbackOf (L : Ledger) (a : ExecuteCallbackAuthenticatedProbeV0)
    (i : AuthenticatedIntent) (phase : UInt8) (callback : AccountInfo) (pda : CallbackPda) :
    Prop where
  canonical : canonicalCallback a i.intentDigest phase = .ok pda
  key : callback.key = pda.key
  data : (L callback.key).executable = false
  fixed : callback.key ∈ a.fixedEnvelopeKeys
  other : a.engineState.key ≠ callback.key

/-- The state of the reference engine fits the market and the phase it is asked for. -/
structure StateFits (L : Ledger) (a : ExecuteCallbackAuthenticatedProbeV0) (d : EnvelopeData)
    (s : RoutedPlan.EngineState) (phase : UInt8) (preSequence : UInt64) : Prop where
  program : a.engineProgram.key = RoutedPlan.ID
  loaded : RoutedPlan.loadEngineState L a.engineState.key = .ok s
  market : s.market = a.market.key
  revision : s.revision = d.market.engineRevision
  mode : s.mode = RoutedPlan.modeAccept
  timing : Wire.Routed.validatePhaseForTiming s.timingMode phase = .ok ()
  sequence : s.sequence = preSequence
  fits : s.sequence.toNat + 1 < 2 ^ 64

/-- A call of a phase as the Core makes it, on accounts that have not changed hands since the intent
was authenticated. -/
structure PhaseAsked (L L₁ : Ledger) (a : ExecuteCallbackAuthenticatedProbeV0) (d : EnvelopeData)
    (args : ExecuteCallbackAuthenticatedProbeV0Args) (i : AuthenticatedIntent) (phase : UInt8)
    (context : Hash) (preSequence : UInt64) (callback : AccountInfo) (pda : CallbackPda)
    (capability : Hash) (request : Wire.Routed.EngineRequest) (s : RoutedPlan.EngineState) :
    Prop where
  sameOwnership : SameOwnership L L₁
  stateCode : (L a.engineState.key).executable = false
  stateWritable : a.engineState.isWritable = true
  admitted : List.Forall₂ (fun info descriptor => Admitted config
    (a.remainingAccounts.map (accountView L)) a.fixedEnvelopeKeys (accountView L info) descriptor)
    a.remainingAccounts i.opaqueDescriptors
  few : a.remainingAccounts.length ≤ Wire.maxOpaqueAccounts
  callback : CallbackOf L a i phase callback pda
  request : RequestOk a d args i phase context preSequence capability request
  capability : Wire.Routed.computeCapabilityHash a.engineProgram.key
    (capabilityDescriptors L₁ a.engineState i.opaqueDescriptors (primaryMode phase)) =
      .ok capability
  state : StateFits L₁ a d s phase preSequence
  short : args.opaquePayload.length ≤ Wire.maxOpaquePayloadLen
  plain : args.opaquePayload.head? ≠ some helperPayloadTag

/-- The engine state as a phase presents it. -/
def stateView (a : ExecuteCallbackAuthenticatedProbeV0) (phase : UInt8) : AccountInfo :=
  ⟨a.engineState.key, false, !decide (phase = phasePrepare)⟩

/-- The callback address as a phase presents it. -/
def callbackView (callback : AccountInfo) : AccountInfo := ⟨callback.key, true, false⟩

/-- The opaque accounts as a phase presents them. -/
def phaseViews (i : AuthenticatedIntent) (phase : UInt8) : List AccountInfo :=
  (phaseDescriptors i.opaqueDescriptors (primaryMode phase)).map opaqueView

variable {L L₁ : Ledger} {a : ExecuteCallbackAuthenticatedProbeV0} {d : EnvelopeData}
  {args : ExecuteCallbackAuthenticatedProbeV0Args} {i : AuthenticatedIntent} {phase : UInt8}
  {context : Hash} {preSequence : UInt64} {callback : AccountInfo} {pda : CallbackPda}
  {capability : Hash} {request : Wire.Routed.EngineRequest} {s : RoutedPlan.EngineState}

omit [Crypto] in
private theorem primaryMode_eq_authorized : (decide (primaryMode phase = .authorized)) =
    !decide (phase = phasePrepare) := by
  unfold primaryMode
  by_cases hp : phase = phasePrepare
  · simp [hp]
  · simp [hp]

omit [Crypto] in
/-- The descriptors of a phase ask for what was admitted, and in PREPARE for no write. -/
theorem mem_phaseDescriptors {x : Wire.CapabilityDescriptor}
    (h : x ∈ phaseDescriptors i.opaqueDescriptors (primaryMode phase)) :
    ∃ y ∈ i.opaqueDescriptors, x.key = y.key ∧ x.owner = y.owner ∧
      x.isExecutable = y.isExecutable ∧
      x.isWritable = (!decide (phase = phasePrepare) && y.isWritable) := by
  unfold phaseDescriptors at h
  obtain ⟨y, hy, rfl⟩ := List.mem_map.mp h
  refine ⟨y, hy, ?_⟩
  unfold primaryMode
  by_cases hp : phase = phasePrepare
  · simp [hp]
  · simp [hp]

omit [Crypto] in
private theorem capabilityDescriptors_eq (L : Ledger) (engineState : AccountInfo)
    (ds : List Wire.CapabilityDescriptor) (mode : CapabilityMode) :
    capabilityDescriptors L engineState ds mode =
      ⟨engineState.key, (L engineState.key).owner, decide (mode = .authorized), false, false⟩ ::
        phaseDescriptors ds mode := by
  cases mode <;> simp [capabilityDescriptors, phaseDescriptors]

theorem PhaseAsked.presented (h : PhaseAsked L L₁ a d args i phase context preSequence callback pda
      capability request s) {ix : Instruction}
    (hmetas : ix.accounts = phaseMetas a callback
      (phaseDescriptors i.opaqueDescriptors (primaryMode phase)) phase) :
    ix.presented = stateView a phase :: callbackView callback :: phaseViews i phase := by
  have hkeys : ∀ x ∈ phaseDescriptors i.opaqueDescriptors (primaryMode phase),
      x.key ∉ a.fixedEnvelopeKeys := by
    intro x hx
    obtain ⟨y, hy, hkey, -⟩ := mem_phaseDescriptors hx
    rw [hkey]
    exact admitted_notFixed h.admitted hy
  have hagree : ∀ x ∈ phaseDescriptors i.opaqueDescriptors (primaryMode phase),
      ∀ x' ∈ phaseDescriptors i.opaqueDescriptors (primaryMode phase), x.key = x'.key →
        x.isWritable = x'.isWritable := by
    intro x hx x' hx' hkey
    obtain ⟨y, hy, hk, -, -, hw⟩ := mem_phaseDescriptors hx
    obtain ⟨y', hy', hk', -, -, hw'⟩ := mem_phaseDescriptors hx'
    rw [hw, hw', admitted_agree h.admitted hy hy' (by rw [← hk, ← hk', hkey])]
  have hstate : a.engineState.key ∈ a.fixedEnvelopeKeys := by
    simp [ExecuteCallbackAuthenticatedProbeV0.fixedEnvelopeKeys]
  have hfirst : phaseMetas a callback (phaseDescriptors i.opaqueDescriptors (primaryMode phase))
      phase = ⟨a.engineState.key, false, !decide (phase = phasePrepare)⟩ ::
        ⟨callback.key, true, false⟩ ::
        (phaseDescriptors i.opaqueDescriptors (primaryMode phase)).map opaqueMeta := by
    unfold phaseMetas AccountMeta.newReadonly AccountMeta.new
    by_cases hp : phase = phasePrepare
    · simp [hp]
    · simp [hp]
  rw [hfirst] at hmetas
  refine presented_capabilities hmetas h.callback.other ?_ ?_ hagree
  · intro x hx heq
    have hmem := hkeys x hx
    rw [heq] at hmem
    exact hmem hstate
  · intro x hx heq
    have hmem := hkeys x hx
    rw [heq] at hmem
    exact hmem h.callback.fixed

theorem PhaseAsked.observed (h : PhaseAsked L L₁ a d args i phase context preSequence callback pda
      capability request s) :
    RoutedPlan.capabilityDescriptor L₁ (stateView a phase) ::
      (phaseViews i phase).map (RoutedPlan.capabilityDescriptor L₁) =
    capabilityDescriptors L₁ a.engineState i.opaqueDescriptors (primaryMode phase) := by
  have hviews : (phaseViews i phase).map (RoutedPlan.capabilityDescriptor L₁) =
      phaseDescriptors i.opaqueDescriptors (primaryMode phase) := by
    unfold phaseViews
    rw [List.map_map]
    refine (List.map_congr_left fun x hx => ?_).trans (List.map_id _)
    obtain ⟨y, hy, hkey, howner, hexec, -⟩ := mem_phaseDescriptors hx
    have hy := admitted_described h.admitted hy
    have hsigner : x.isSigner = false := by
      unfold phaseDescriptors at hx
      obtain ⟨z, hz, rfl⟩ := List.mem_map.mp hx
      have hz := (admitted_described h.admitted hz).isSigner
      split
      · exact hz
      · rfl
    unfold Function.comp opaqueView RoutedPlan.capabilityDescriptor
    dsimp only
    rw [h.sameOwnership.owner, h.sameOwnership.executable, hkey, ← hy.owner, ← hy.isExecutable,
      ← howner, ← hexec, ← hsigner, ← hkey]
    rfl
  have hcode : (L₁ a.engineState.key).executable = false := by
    rw [h.sameOwnership.executable]
    exact h.stateCode
  rw [hviews, capabilityDescriptors_eq, primaryMode_eq_authorized]
  unfold stateView RoutedPlan.capabilityDescriptor
  rw [hcode]

omit [Crypto] in
theorem forM_ok {f : AccountInfo → EngineResult Unit} {xs : List AccountInfo}
    (h : ∀ x ∈ xs, f x = .ok ()) : xs.forM f = .ok () := by
  induction xs with
  | nil => rfl
  | cons x xs ih =>
    show (f x >>= fun _ => xs.forM f) = .ok ()
    rw [h x List.mem_cons_self, except_ok_bind]
    exact ih fun y hy => h y (List.mem_cons_of_mem x hy)

omit [Crypto] in
theorem StateFits.phase_known (h : StateFits L a d s phase preSequence) :
    phase = phasePrepare ∨ phase = phaseTransition ∨ phase = phaseCommit := by
  have htiming := h.timing
  unfold Wire.Routed.validatePhaseForTiming at htiming
  simp only [except_bind_ok_iff, require_ok_iff] at htiming
  obtain ⟨-, -, -, -, ⟨-, hp⟩ | ⟨-, hp | hp⟩⟩ := htiming
  · exact .inr (.inl hp)
  · exact .inl hp
  · exact .inr (.inr hp)

theorem PhaseAsked.privileges (h : PhaseAsked L L₁ a d args i phase context preSequence callback pda
      capability request s) :
    RoutedPlan.validateFixedAccountPrivileges L₁ ⟨stateView a phase, callbackView callback⟩
      (phaseViews i phase) phase = .ok () := by
  have hcode : (L₁ a.engineState.key).executable = false := by
    rw [h.sameOwnership.executable]
    exact h.stateCode
  have hdata : (L₁ callback.key).executable = false := by
    rw [h.sameOwnership.executable]
    exact h.callback.data
  have hviews : ∀ x ∈ phaseViews i phase, x.isSigner = false ∧ x.key ≠ callback.key ∧
      ¬ (phase = phasePrepare ∧ x.isWritable = true) := by
    intro x hx
    unfold phaseViews at hx
    obtain ⟨y, hy, rfl⟩ := List.mem_map.mp hx
    obtain ⟨z, hz, hkey, -, -, hw⟩ := mem_phaseDescriptors hy
    refine ⟨rfl, ?_, ?_⟩
    · show y.key ≠ callback.key
      intro heq
      have hmem := admitted_notFixed h.admitted hz
      rw [← hkey, heq] at hmem
      exact hmem h.callback.fixed
    · rintro ⟨hp, hwritable⟩
      have hwritable : y.isWritable = true := hwritable
      rw [hw, hp] at hwritable
      simp at hwritable
  have hall : (phaseViews i phase).forM (fun account => do
      require (account.isSigner = false) EngineError.opaqueSignerForbidden
      require (account.key ≠ callback.key) EngineError.aliasedCallbackAuthority
      require (¬ (phase = phasePrepare ∧ account.isWritable = true))
        EngineError.prepareCapabilityWritable) = .ok () := by
    apply forM_ok
    intro x hx
    obtain ⟨hs, hne, hw⟩ := hviews x hx
    rw [require_of hs, except_ok_bind, require_of hne, except_ok_bind, require_of hw]
  unfold RoutedPlan.validateFixedAccountPrivileges
  rcases h.state.phase_known with hp | hp
  · simp only [if_pos hp, except_bind_ok_iff, require_ok_iff]
    exact ⟨(), hcode, (), rfl, (), ⟨rfl, rfl, hdata⟩, (), h.callback.other, (),
      by simp [stateView, hp], hall⟩
  · have hne : ¬ phase = phasePrepare := by
      rcases hp with rfl | rfl
      · decide
      · decide
    simp only [if_neg hne, if_pos hp, except_bind_ok_iff, require_ok_iff]
    exact ⟨(), hcode, (), rfl, (), ⟨rfl, rfl, hdata⟩, (), h.callback.other, (),
      by simp [stateView, hne], hall⟩

theorem PhaseAsked.derived (h : PhaseAsked L L₁ a d args i phase context preSequence callback pda
      capability request s) :
    RoutedPlan.authenticateCallbackAuthority a.engineState.key callback.key request.binding =
      .ok () := by
  have hcanonical := h.callback.canonical
  simp only [canonicalCallback, except_bind_ok_iff, okOr_ok_iff, except_pure_ok_iff,
    Prod.exists] at hcanonical
  obtain ⟨key, bump, hfind, hpda⟩ := hcanonical
  have hseeds : RoutedPlan.callbackSeeds a.engineState.key request.binding =
      a.callbackSeeds i.intentDigest phase := by
    unfold RoutedPlan.callbackSeeds ExecuteCallbackAuthenticatedProbeV0.callbackSeeds callbackSeeds
    rw [h.request.market, h.request.domain, h.request.intentDigest, h.request.phase,
      h.state.program]
    rfl
  unfold RoutedPlan.authenticateCallbackAuthority
  rw [hseeds]
  simp only [except_bind_ok_iff, okOr_ok_iff, require_ok_iff, Prod.exists]
  refine ⟨key, bump, hfind, ?_⟩
  rw [h.callback.key, ← hpda]

/-- Nothing that the engine checks of a phase of the Core's making fails. -/
theorem PhaseAsked.authenticated (h : PhaseAsked L L₁ a d args i phase context preSequence callback
      pda capability request s) :
    RoutedPlan.Authenticated L₁ ⟨stateView a phase, callbackView callback⟩ (phaseViews i phase)
      request.binding.phase request s := by
  have hphase := h.request.phase
  have hlen : (phaseViews i phase).length = a.remainingAccounts.length := by
    unfold phaseViews phaseDescriptors
    rw [List.length_map, List.length_map]
    exact h.admitted.length_eq.symm
  constructor
  · rfl
  · rw [hlen]
    exact h.few
  · rw [hlen]
    exact h.request.opaqueAccountCount.symm
  · rw [hphase]
    exact h.privileges
  · exact h.state.loaded
  · rw [h.state.mode]
    decide
  · rw [h.request.market]
    exact h.state.market
  · rw [h.request.engineRevision]
    exact h.state.revision
  · rw [hphase]
    exact h.state.timing
  · rw [h.request.preSequence]
    exact h.state.sequence
  · exact h.derived
  · have hcapability := h.capability
    rw [h.state.program] at hcapability
    rw [h.observed, h.request.phaseCapabilityHash]
    exact hcapability
  · exact h.request.digest

/-- The state after a phase that advances it. -/
def nextState (s : RoutedPlan.EngineState) (request : Wire.Routed.EngineRequest)
    (amountOut : UInt64) : RoutedPlan.EngineState :=
  { s with
    sequence := s.sequence + 1
    lastIntentDigest := request.binding.intentDigest
    lastPhaseContextDigest := request.binding.phaseContextDigest
    lastExecutionDigest := request.executionDigest
    lastAmountOut := amountOut
    lastPhase := request.binding.phase }

/-- The state after a phase. -/
def stateAfter (s : RoutedPlan.EngineState) (request : Wire.Routed.EngineRequest)
    (amountOut : UInt64) : RoutedPlan.EngineState :=
  if request.binding.phase = phasePrepare then s else nextState s request amountOut

/-- What a phase has the engine's programs do. -/
def phaseActions (key : Pubkey) (s : RoutedPlan.EngineState) (request : Wire.Routed.EngineRequest)
    (amountOut : UInt64) : List (Action config.ID) :=
  if request.binding.phase = phasePrepare then []
  else [.write RoutedPlan.ID key RoutedPlan.ID false (nextState s request amountOut).trySerialize]

/-- The receipt of a phase. -/
def phaseReceipt (s : RoutedPlan.EngineState) (request : Wire.Routed.EngineRequest)
    (amountOut : UInt64) : Wire.Routed.EngineReceipt :=
  RoutedPlan.receiptOf request amountOut (stateAfter s request amountOut).sequence

section Answer

variable {ix : Instruction} {helper : Callee CoreState config.ID} {q : CpmmQuote}
  (h : PhaseAsked L L₁ a d args i phase context preSequence callback pda capability request s)
  (hmetas : ix.accounts = phaseMetas a callback
    (phaseDescriptors i.opaqueDescriptors (primaryMode phase)) phase)
  (hdata : Wire.Routed.encodeEngineInstruction request = .ok ix.data)

include h

theorem PhaseAsked.receipt_encodes (amountOut : UInt64) :
    ∃ data, Wire.Routed.encodeReceipt (phaseReceipt s request amountOut) = .ok data := by
  refine ⟨_, Wire.Routed.encodeReceipt_ok_iff.mpr ⟨?_, rfl⟩⟩
  rw [Wire.Routed.receiptCodec_valid_iff, Wire.Routed.requirePhase_ok_iff]
  show request.binding.phase = _ ∨ request.binding.phase = _ ∨ request.binding.phase = _
  rw [h.request.phase]
  rcases h.state.phase_known with hp | hp | hp
  · exact .inr (.inl hp)
  · exact .inl hp
  · exact .inr (.inr hp)

include hmetas hdata

theorem PhaseAsked.reaches : ∃ encoded, Wire.Routed.encodeEngineRequest request = .ok encoded ∧
    RoutedPlan.process L₁ ix.presented ix.data = RoutedPlan.evaluatePhase L₁
      ⟨stateView a phase, callbackView callback⟩ (phaseViews i phase) request.binding.phase
        encoded := by
  rw [h.presented hmetas]
  exact RoutedPlan.process_eq L₁ _ _ _ hdata

omit hmetas hdata in
theorem PhaseAsked.accepting (s' : RoutedPlan.EngineState)
    (hs' : RoutedPlan.loadEngineState L₁ (stateView a phase).key = .ok s') :
    s'.mode = RoutedPlan.modeAccept := by
  have hloaded := h.state.loaded
  rw [show (stateView a phase).key = a.engineState.key from rfl, hloaded, Except.ok.injEq] at hs'
  rw [← hs', h.state.mode]

/-- What the engine answers a phase with, where it can quote. -/
theorem PhaseAsked.answered {data : List UInt8}
    (hq : RoutedPlan.quoteExactIn d.domain.accountedA d.domain.accountedB args.amountIn
      s.lpFeeBps = .ok q)
    (hreceipt : Wire.Routed.encodeReceipt (phaseReceipt s request q.amountOut) = .ok data) :
    RoutedPlan.respond helper ix L₁ = some {
      actions := phaseActions a.engineState.key s request q.amountOut
      returned := some (RoutedPlan.ID, data) } := by
  obtain ⟨encoded, hencode, hprocess⟩ := h.reaches hmetas hdata
  have hquote : RoutedPlan.quoteExactIn request.binding.accountedInputBefore
      request.binding.accountedOutputBefore request.binding.amountIn s.lpFeeBps = .ok q := by
    rw [h.request.accountedInputBefore, h.request.accountedOutputBefore, h.request.amountIn]
    exact hq
  have hbytes : request.binding.payload.toList.take request.binding.payloadLen.toNat =
      args.opaquePayload := by
    obtain ⟨payloadLen, field, hfield, -, htake⟩ := Wire.canonicalPayload_ok h.short
    rw [h.request.payload, Except.ok.injEq, Prod.mk.injEq] at hfield
    rw [hfield.1, hfield.2]
    exact htake
  by_cases hp : request.binding.phase = phasePrepare
  · have hafter : stateAfter s request q.amountOut = s := if_pos hp
    have hactions : phaseActions a.engineState.key s request q.amountOut = [] := if_pos hp
    unfold phaseReceipt at hreceipt
    rw [hafter] at hreceipt
    have heval := (RoutedPlan.evaluatePhase_ok_iff (e := ⟨none, none, some data⟩) hencode
      h.accepting).mpr ⟨s, q, s, data, h.authenticated, hquote, hreceipt, rfl, by
        rw [if_pos hp]
        exact ⟨rfl, rfl, rfl⟩⟩
    have hanswer := hprocess.trans heval
    rw [hactions]
    exact RoutedPlan.respond_eq_some_iff.mpr ⟨_, ⟨[], none⟩, hanswer, rfl, rfl⟩
  · have hafter : stateAfter s request q.amountOut = nextState s request q.amountOut := if_neg hp
    have hactions : phaseActions a.engineState.key s request q.amountOut = [.write RoutedPlan.ID
      a.engineState.key RoutedPlan.ID false (nextState s request q.amountOut).trySerialize] :=
        if_neg hp
    unfold phaseReceipt at hreceipt
    rw [hafter] at hreceipt
    have hadd : checkedAdd s.sequence 1 = some (s.sequence + 1) := if_pos h.state.fits
    have hadvance : RoutedPlan.advance s request q.amountOut =
        .ok (nextState s request q.amountOut) := by
      simp only [RoutedPlan.advance, except_bind_ok_iff, okOr_ok_iff, except_pure_ok_iff, hadd]
      exact ⟨_, rfl, rfl⟩
    have hhelper : RoutedPlan.helperInstruction L₁
        (request.binding.payload.toList.take request.binding.payloadLen.toNat) (phaseViews i phase)
        a.engineState.key callback.key = .ok none := by
      rw [hbytes]
      exact if_pos h.plain
    have heval := (RoutedPlan.evaluatePhase_ok_iff (e := ⟨none, some (a.engineState.key,
      nextState s request q.amountOut), some data⟩) hencode h.accepting).mpr ⟨s, q,
        nextState s request q.amountOut, data, h.authenticated, hquote, hreceipt, rfl, by
          rw [if_neg hp]
          exact ⟨hadvance, rfl, hhelper⟩⟩
    have hanswer := hprocess.trans heval
    rw [hactions]
    exact RoutedPlan.respond_eq_some_iff.mpr ⟨_, ⟨[], none⟩, hanswer, rfl, rfl⟩

theorem PhaseAsked.refused {err : EngineError}
    (hq : RoutedPlan.quoteExactIn d.domain.accountedA d.domain.accountedB args.amountIn
      s.lpFeeBps = .error err) : RoutedPlan.respond helper ix L₁ = none := by
  obtain ⟨encoded, hencode, hprocess⟩ := h.reaches hmetas hdata
  rw [Option.eq_none_iff_forall_ne_some]
  intro response hresponse
  obtain ⟨e, nested, he, -⟩ := RoutedPlan.respond_eq_some_iff.mp hresponse
  rw [hprocess] at he
  obtain ⟨state, q, next, data, hev⟩ := (RoutedPlan.evaluatePhase_ok_iff hencode h.accepting).mp he
  have hstate : state = s := by
    have hloaded := hev.authenticated.loaded
    rw [show (stateView a phase).key = a.engineState.key from rfl, h.state.loaded,
      Except.ok.injEq] at hloaded
    exact hloaded.symm
  have hquoted := hev.quoted
  rw [h.request.accountedInputBefore, h.request.accountedOutputBefore, h.request.amountIn, hstate,
    hq] at hquoted
  cases hquoted

end Answer

section Invocation

variable {env : Env config} {w : Core.World} {helper : Callee CoreState config.ID} {q : CpmmQuote}
  {primary : UInt8} {data : List UInt8}

omit [Crypto] in
private theorem normalizedInfo_key {accounts : List AccountView} {x : Wire.CapabilityDescriptor}
    {info : AccountInfo} (h : normalizedInfo accounts x = .ok info) : info.key = x.key := by
  simp only [normalizedInfo, except_bind_ok_iff, okOr_ok_iff, except_pure_ok_iff] at h
  obtain ⟨candidate, hfind, rfl⟩ := h
  have hfound := List.find?_some hfind
  simp only [Bool.and_eq_true, decide_eq_true_eq] at hfound
  exact hfound.1.1.1.1

private theorem phaseInstruction_infos {ds : List Wire.CapabilityDescriptor} {ix : Instruction}
    {infos : List AccountInfo} (h : phaseInstruction L a ds request callback = .ok (ix, infos)) :
    ∀ m ∈ ix.accounts, ∃ info ∈ infos, info.key = m.pubkey := by
  simp only [phaseInstruction, except_bind_ok_iff, require_ok_iff, except_pure_ok_iff,
    except_mapM_ok_iff, Prod.mk.injEq] at h
  obtain ⟨-, -, data, -, opaqueInfos, hopaqueInfos, rfl, rfl⟩ := h
  intro m hm
  dsimp only at hm
  unfold phaseMetas at hm
  rcases List.mem_cons.mp hm with rfl | hm
  · refine ⟨a.engineState, by simp, ?_⟩
    split <;> rfl
  · rcases List.mem_cons.mp hm with rfl | hm
    · exact ⟨callback, by simp, rfl⟩
    · obtain ⟨x, hx, rfl⟩ := List.mem_map.mp hm
      obtain ⟨info, hinfo, hkey⟩ := exists_of_forall₂_mem hopaqueInfos.flip hx
      exact ⟨info, by simp [hinfo], by rw [opaqueMeta_pubkey, normalizedInfo_key hkey]⟩

theorem PhaseAsked.granted (h : PhaseAsked L L₁ a d args i phase context preSequence callback pda
      capability request s) {m : AccountMeta}
    (hm : m ∈ phaseMetas a callback (phaseDescriptors i.opaqueDescriptors (primaryMode phase))
      phase) : m.Granted a.infos [pda.key] := by
  have hsigner : ∀ x ∈ i.opaqueDescriptors, x.isSigner = false := by
    intro x hx
    exact (admitted_described h.admitted hx).isSigner
  have hcaller : ∀ info ∈ a.remainingAccounts, info ∈ a.infos := fun info hinfo =>
    List.mem_append_right _ hinfo
  unfold phaseMetas at hm
  rcases List.mem_cons.mp hm with rfl | hm
  · have hstate : a.engineState ∈ a.infos := by
      simp [ExecuteCallbackAuthenticatedProbeV0.infos]
    constructor
    · intro _
      refine ⟨a.engineState, hstate, ?_, h.stateWritable⟩
      split <;> rfl
    · intro hs
      split at hs
      · cases hs
      · cases hs
  · rcases List.mem_cons.mp hm with rfl | hm
    · constructor
      · intro hw
        cases hw
      · intro _
        right
        rw [List.mem_singleton]
        exact h.callback.key
    · obtain ⟨x, hx, rfl⟩ := List.mem_map.mp hm
      obtain ⟨y, hy, hweak⟩ := phaseDescriptors_weaken hsigner hx
      exact admitted_granted h.admitted hcaller hy hweak

/-- The ledger after a phase. -/
def phaseLedger (L : Ledger) (key : Pubkey) (s : RoutedPlan.EngineState)
    (request : Wire.Routed.EngineRequest) (amountOut : UInt64) : Ledger :=
  if request.binding.phase = phasePrepare then L
  else Function.update L key
    ⟨RoutedPlan.ID, false, .raw (nextState s request amountOut).trySerialize⟩

/-- The call of a phase. -/
def phaseCall (a : ExecuteCallbackAuthenticatedProbeV0) (i : AuthenticatedIntent) (phase : UInt8)
    (callback : AccountInfo) (data : List UInt8) : Instruction where
  programId := a.engineProgram.key
  accounts := phaseMetas a callback (phaseDescriptors i.opaqueDescriptors (primaryMode phase)) phase
  data := data

/-- What a phase call needs of the Core besides its checks. -/
structure Callable (env : Env config) (L : Ledger) (a : ExecuteCallbackAuthenticatedProbeV0)
    (helper : Callee CoreState config.ID) : Prop where
  callee : env.callee = RoutedPlan.respond helper
  executable : (L a.engineProgram.key).executable = true
  notCore : a.engineProgram.key ≠ config.ID
  owner : (L a.engineState.key).owner = RoutedPlan.ID

variable
  (h : PhaseAsked L w.ledger a d args i phase context preSequence callback pda capability request s)
  (hi : IntentOk L a d args primary i) (hc : Callable env w.ledger a helper)
  (hdata : Wire.Routed.encodeEngineInstruction request = .ok data)

include h hi hc hdata

/-- A phase goes through where the engine can quote, and leaves its receipt and the next state. -/
theorem PhaseAsked.invoked
    (hq : RoutedPlan.quoteExactIn d.domain.accountedA d.domain.accountedB args.amountIn
      s.lpFeeBps = .ok q) :
    ∃ w₁, (invokeEnginePhase env a (phaseDescriptors i.opaqueDescriptors (primaryMode phase))
        request callback pda.bump).run w = (.ok (phaseReceipt s request q.amountOut), w₁) ∧
      w₁.ledger = phaseLedger w.ledger a.engineState.key s request q.amountOut := by
  obtain ⟨infos, hix⟩ := phaseInstruction_succeeds hi h.sameOwnership (primaryMode phase) hdata
    callback
  have hsigner := callbackSigner_of_canonical h.callback.canonical
  rw [← h.request.intentDigest, ← h.request.phase] at hsigner
  rw [h.request.phase] at hix
  have hcalled : phaseInstruction w.ledger a (phaseDescriptors i.opaqueDescriptors
      (primaryMode phase)) request callback = .ok (phaseCall a i phase callback data, infos) := hix
  have hinfos := phaseInstruction_infos hcalled
  have hmetas : (phaseCall a i phase callback data).accounts = phaseMetas a callback
      (phaseDescriptors i.opaqueDescriptors (primaryMode phase)) phase := rfl
  have hprogram : (phaseCall a i phase callback data).programId = a.engineProgram.key := rfl
  have hixdata : Wire.Routed.encodeEngineInstruction request =
      .ok (phaseCall a i phase callback data).data := hdata
  clear hix
  generalize phaseCall a i phase callback data = ix at hcalled hinfos hmetas hprogram hixdata
  obtain ⟨bytes, hbytes⟩ := h.receipt_encodes q.amountOut
  have hresponse : RoutedPlan.respond helper ix w.ledger = some _ :=
    h.answered hmetas hixdata hq hbytes
  rw [← hc.callee] at hresponse
  have hperform : (performAll (ix.privileges config.ID)
      (phaseActions a.engineState.key s request q.amountOut)).run w =
        (.ok (), { w with
          ledger := phaseLedger w.ledger a.engineState.key s request q.amountOut }) := by
    unfold phaseActions phaseLedger
    by_cases hp : request.binding.phase = phasePrepare
    · rw [if_pos hp, if_pos hp]
      rfl
    · rw [if_neg hp, if_neg hp]
      have hcallable : (ix.privileges config.ID).callable RoutedPlan.ID = true := by
        unfold Instruction.privileges
        simp only [hprogram, h.state.program, decide_true, Bool.true_or, Bool.true_and,
          decide_eq_true_eq]
        decide
      have hwritable : (ix.privileges config.ID).writable a.engineState.key = true := by
        rw [h.request.phase] at hp
        unfold Instruction.privileges
        simp only [hmetas, phaseMetas, if_neg hp, List.any_cons, AccountMeta.new, decide_true,
          Bool.true_and, Bool.true_or]
      exact performAll_write hcallable (by decide) hwritable hc.owner
  have hanswer : ∃ w₁, (invokeSigned config.ID env.callee a.infos ix infos [pda.key]).run w =
      (.ok (), w₁) ∧ w₁.ledger = phaseLedger w.ledger a.engineState.key s request q.amountOut ∧
        w₁.returnData = some (RoutedPlan.ID, bytes) := by
    refine ⟨_, invokeSigned_succeeds hinfos (fun m hm => h.granted (hmetas ▸ hm)) ?_ ?_ ?_ hresponse
      hperform, rfl, rfl⟩
    · exact ⟨a.engineProgram, by simp [ExecuteCallbackAuthenticatedProbeV0.infos], hprogram.symm⟩
    · rw [hprogram]
      exact hc.executable
    · rw [hprogram]
      exact hc.notCore
  obtain ⟨w₁, hcall, hledger, hreturned⟩ := hanswer
  refine ⟨w₁, ?_, hledger⟩
  have hdecode := Wire.Routed.decodeReceipt_ok_iff.mpr hbytes
  have htake : takeReceipt a.toEnvelope w₁.returnData = .ok bytes := by
    simp only [takeReceipt, hreturned, except_bind_ok_iff, okOr_ok_iff, require_ok_iff,
      except_pure_ok_iff]
    exact ⟨_, rfl, (), h.state.program.symm, rfl⟩
  simp only [invokeEnginePhase, Exec.bind_ok_iff, Exec.get_ok_iff, Exec.ofExcept_ok_iff,
    Exec.mapError_run_ok_iff, except_bind_ok_iff, liftWire_ok_iff]
  exact ⟨w, w, ⟨rfl, rfl⟩, (ix, infos), w, ⟨hcalled, rfl⟩, pda.key, w, ⟨hsigner, rfl⟩, (), w₁, hcall,
    w₁, w₁, ⟨rfl, rfl⟩, ⟨bytes, htake, hdecode⟩, rfl⟩

theorem PhaseAsked.uninvoked {err : EngineError}
    (hq : RoutedPlan.quoteExactIn d.domain.accountedA d.domain.accountedB args.amountIn
      s.lpFeeBps = .error err) :
    (invokeEnginePhase env a (phaseDescriptors i.opaqueDescriptors (primaryMode phase)) request
      callback pda.bump).run w = (.error (.runtime .calleeFailed), w) := by
  obtain ⟨infos, hix⟩ := phaseInstruction_succeeds hi h.sameOwnership (primaryMode phase) hdata
    callback
  have hsigner := callbackSigner_of_canonical h.callback.canonical
  rw [← h.request.intentDigest, ← h.request.phase] at hsigner
  rw [h.request.phase] at hix
  have hcalled : phaseInstruction w.ledger a (phaseDescriptors i.opaqueDescriptors
      (primaryMode phase)) request callback = .ok (phaseCall a i phase callback data, infos) := hix
  have hinfos := phaseInstruction_infos hcalled
  have hmetas : (phaseCall a i phase callback data).accounts = phaseMetas a callback
      (phaseDescriptors i.opaqueDescriptors (primaryMode phase)) phase := rfl
  have hprogram : (phaseCall a i phase callback data).programId = a.engineProgram.key := rfl
  have hixdata : Wire.Routed.encodeEngineInstruction request =
      .ok (phaseCall a i phase callback data).data := hdata
  clear hix
  generalize phaseCall a i phase callback data = ix at hcalled hinfos hmetas hprogram hixdata
  have hresponse : RoutedPlan.respond helper ix w.ledger = none := h.refused hmetas hixdata hq
  rw [← hc.callee] at hresponse
  have hcall : (invokeSigned config.ID env.callee a.infos ix infos [pda.key]).run w =
      (.error .calleeFailed, w) := by
    apply invokeSigned_unanswered hinfos (fun m hm => h.granted (hmetas ▸ hm))
    · exact ⟨a.engineProgram, by simp [ExecuteCallbackAuthenticatedProbeV0.infos], hprogram.symm⟩
    · rw [hprogram]
      exact hc.executable
    · rw [hprogram]
      exact hc.notCore
    · exact hresponse
  unfold invokeEnginePhase
  rw [Exec.run_bind_of_ok (Exec.run_get w), hcalled]
  rw [Exec.run_bind_of_ok (Exec.run_ofExcept _ _), hsigner]
  rw [Exec.run_bind_of_ok (Exec.run_ofExcept _ _)]
  apply Exec.run_bind_of_error
  exact Exec.mapError_run_of_error hcall

end Invocation

end Phase

end ProgrammableSolana.Routed
