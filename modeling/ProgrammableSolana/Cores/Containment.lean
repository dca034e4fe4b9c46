import ProgrammableSolana.Core.Containment
import ProgrammableSolana.Generated.Runs
import ProgrammableSolana.Routed.Runs

/-! The engine calls that the two Cores with opaque accounts make in a run, however it ends: which
metas they have, and that what the Core has cached still holds when they return. -/
namespace ProgrammableSolana.Cores

open ProgrammableSolana.Lib ProgrammableSolana.Solana ProgrammableSolana.Core
open ProgrammableSolana.Generated (ExecuteEngineGeneratedProbeV0 ExecuteEngineGeneratedProbeV0Args
  GeneratedCall AcceptedEnginePlan settleEngineGeneratedProbe handleExecuteEngineGeneratedProbeV0)
open ProgrammableSolana.Routed (ExecuteCallbackAuthenticatedProbeV0
  ExecuteCallbackAuthenticatedProbeV0Args AuthenticatedIntent PreparedExecution CapabilityMode
  AcceptedSettlement CommitOutcome phaseInstruction phaseDescriptors primaryMode canonicalCallback
  capabilityDescriptors settleAuthenticatedIntent handleExecuteCallbackAuthenticatedProbeV0)
open ProgrammableSolana.Wire.Routed (timingPrepareCommit phasePrepare phaseCommit)

/-- What changes as the metas of a call allow is written through them. -/
theorem onlyWrites_of_confined {programId : Pubkey} {ix : Instruction} {L L' : Ledger}
    (h : Confined programId (ix.privileges programId).writable L L') : OnlyWrites ix L L' := by
  intro k hk
  apply h.frame
  unfold Instruction.privileges
  simp only [List.any_eq_false, Bool.and_eq_true, decide_eq_true_eq, not_and, Bool.not_eq_true]
  exact hk

/-- An engine call as it was made and answered: its instruction is contained, the answer wrote
through its metas only, and what the handler has cached still holds after it. -/
structure CallContained (cfg : Config) (e : Envelope) (d : EnvelopeData)
    (opaqueInfos : List AccountInfo) (fixedEnvelopeKeys : List Pubkey) (authorized : Bool)
    (fixed : List AccountMeta) (c : EngineCall CoreState) : Prop where
  contained : Contained cfg c.before e d opaqueInfos fixedEnvelopeKeys authorized fixed c.instruction
  writes : OnlyWrites c.instruction c.before c.after
  kept : Kept cfg c.before c.after
  cached : Cached cfg c.after e d

private theorem callContained {cfg : Config} {e : Envelope} {d : EnvelopeData}
    {opaqueInfos : List AccountInfo} {fixedEnvelopeKeys : List Pubkey} {authorized : Bool}
    {fixed : List AccountMeta} {c : EngineCall CoreState}
    (h : Contained cfg c.before e d opaqueInfos fixedEnvelopeKeys authorized fixed c.instruction)
    (hwrites : OnlyWrites c.instruction c.before c.after) :
    CallContained cfg e d opaqueInfos fixedEnvelopeKeys authorized fixed c := by
  constructor
  · exact h
  · exact hwrites
  · exact h.kept c.after hwrites
  · exact h.cached c.after hwrites

section Generated

variable [Crypto]

/-- The engine call of the generated Core, made on the accounts as they were loaded. -/
structure EvaluateCall (L : Ledger) (a : ExecuteEngineGeneratedProbeV0) (d : EnvelopeData)
    (c : EngineCall CoreState) : Prop where
  loaded : Generated.loadExecute L a = .ok d
  before : c.before = L
  programId : c.instruction.programId = a.engineProgram.key
  sysvar : a.instructionsSysvar.key = instructionsSysvarId
  contained : CallContained Generated.config a.toEnvelope d a.remainingAccounts a.fixedEnvelopeKeys
    true [⟨a.engineState.key, false, true⟩, ⟨a.instructionsSysvar.key, false, false⟩] c

/-- The engine calls of a run of the generated Core from `w` to `w'`: none where it stops before,
else one, and a run that succeeds settles from what that one left. -/
inductive GeneratedCalls (w w' : Core.World) (a : ExecuteEngineGeneratedProbeV0)
    (args : ExecuteEngineGeneratedProbeV0Args) :
    Except Core.Error Unit → List (EngineCall CoreState) → Prop
  | stopped (e : Core.Error) : GeneratedCalls w w' a args (.error e) []
  | evaluated (r : Except Core.Error Unit) (d : EnvelopeData) (c : EngineCall CoreState) :
    EvaluateCall w.ledger a d c →
    (r = .ok () → ∃ (plan : AcceptedEnginePlan) (w₁ : Core.World), w₁.ledger = c.after ∧
      (settleEngineGeneratedProbe a d args plan).run w₁ = (.ok (), w')) →
    GeneratedCalls w w' a args r [c]

variable {env : Env Generated.config} {w w' : Core.World} {a : ExecuteEngineGeneratedProbeV0}
  {args : ExecuteEngineGeneratedProbeV0Args} {d : EnvelopeData} {call : GeneratedCall}

private theorem generated_contained {L : Ledger} (h : Generated.Prepared env L a args d call) :
    a.instructionsSysvar.key = instructionsSysvarId ∧
      Contained Generated.config L a.toEnvelope d a.remainingAccounts a.fixedEnvelopeKeys true
        [⟨a.engineState.key, false, true⟩, ⟨a.instructionsSysvar.key, false, false⟩]
        call.engineInstruction := by
  have haccounts := Generated.validateAccounts_ok h.loaded h.validated
  have hcall := Generated.planExecution_ok h.planned
  constructor
  · have hload := h.loaded
    simp only [Generated.loadExecute, constraintAddress, except_bind_ok_iff, require_ok_iff,
      except_pure_ok_iff] at hload
    obtain ⟨_, -, _, -, _, -, _, hsysvar, -⟩ := hload
    exact hsysvar
  · apply contained_of_metas hcall.metas hcall.admitted
    · intro m hm hw
      simp only [List.mem_cons, List.not_mem_nil, or_false] at hm
      rcases hm with rfl | rfl
      · constructor
        · show (L a.engineState.key).owner ≠ Generated.config.ID
          rw [haccounts.bound.engineStateOwner]
          exact haccounts.bound.engineNotCore
        · exact haccounts.engineState_foreign
      · cases hw
    · intro hauth
      cases hauth
    · exact haccounts.bound.cached

/-- The answered call of a prepared execution. -/
theorem evaluateCall_of_invoke {infos : List AccountInfo}
    (h : Generated.Prepared env w.ledger a args d call)
    (hinvoke : (invokeSigned Generated.ID env.callee infos call.engineInstruction call.engineInfos
      []).run w = (.ok (), w')) :
    ∃ c, EvaluateCall w.ledger a d c ∧ c.after = w'.ledger ∧
      engineCalls w'.log = engineCalls w.log ++ [c] := by
  obtain ⟨c, hix, hbefore, hafter, -, hlog, -⟩ := invokeSigned_called hinvoke
  have hconfined := invokeSigned_confined Generated.config.ID_ne_token Generated.config.ID_ne_system
    hinvoke
  obtain ⟨hsysvar, hcontained⟩ := generated_contained h
  refine ⟨c, ?_, hafter, hlog⟩
  constructor
  · exact h.loaded
  · exact hbefore
  · rw [hix]
    exact (Generated.planExecution_ok h.planned).programId
  · exact hsysvar
  · apply callContained
    · rw [hix, hbefore]
      exact hcontained
    · rw [hix, hbefore, hafter]
      exact onlyWrites_of_confined hconfined

private theorem settleEngineGeneratedProbe_uncalled (a : ExecuteEngineGeneratedProbeV0)
    (d : EnvelopeData)
    (args : ExecuteEngineGeneratedProbeV0Args) (plan : AcceptedEnginePlan) :
    (settleEngineGeneratedProbe a d args plan).Leaves Uncalled := by
  unfold settleEngineGeneratedProbe
  apply Exec.Leaves.bind .trans (settle_uncalled _ _ _ _ _ _)
  intro _
  apply Exec.Leaves.bind .trans (writeAccounted_uncalled _ _ _ _ _)
  intro _
  exact emit_uncalled _

/-- However a run of the generated Core ends, its engine calls are contained. -/
theorem generated_calls (env : Env Generated.config) (w : Core.World)
    (a : ExecuteEngineGeneratedProbeV0) (args : ExecuteEngineGeneratedProbeV0Args) :
    (handleExecuteEngineGeneratedProbeV0 env a args).Ends w
      (fun e w' => ∃ calls, engineCalls w'.log = engineCalls w.log ++ calls ∧
        GeneratedCalls w w' a args (.error e) calls)
      (fun _ w' => ∃ calls, engineCalls w'.log = engineCalls w.log ++ calls ∧
        GeneratedCalls w w' a args (.ok ()) calls) := by
  have hstopped : ∀ e w₁, Uncalled w w₁ → ∃ calls,
      engineCalls w₁.log = engineCalls w.log ++ calls ∧
        GeneratedCalls w w₁ a args (.error e) calls := by
    intro e w₁ hsame
    refine ⟨[], ?_, .stopped e⟩
    rw [List.append_nil]
    exact hsame
  unfold handleExecuteEngineGeneratedProbeV0
  apply Exec.ends_get_bind
  apply Exec.ends_ofExcept_bind_of (fun e _ => hstopped e w (.refl w))
  intro d hload
  apply Exec.ends_ofExcept_bind_of (fun e _ => hstopped e w (.refl w))
  intro _ hvalid
  apply Exec.ends_ofExcept_bind_of (fun e _ => hstopped e w (.refl w))
  intro call hplan
  apply Exec.ends_mapError_bind_of
  · intro e w₁ hinvoke
    exact hstopped _ w₁ (invokeSigned_uncalled hinvoke)
  · intro _ w₁ hinvoke
    obtain ⟨c, hcall, hafter, hlog⟩ := evaluateCall_of_invoke ⟨hload, hvalid, hplan⟩ hinvoke
    have hrefused : ∀ e w', Uncalled w₁ w' → ∃ calls,
        engineCalls w'.log = engineCalls w.log ++ calls ∧
          GeneratedCalls w w' a args (.error e) calls := by
      intro e w' hsame
      refine ⟨[c], Eq.trans hsame hlog, .evaluated _ d c hcall ?_⟩
      intro hok
      cases hok
    apply Exec.ends_get_bind
    apply Exec.ends_ofExcept_bind_of (fun e _ => hrefused e w₁ (.refl w₁))
    intro receipt _
    apply Exec.ends_ofExcept_bind_of (fun e _ => hrefused e w₁ (.refl w₁))
    intro plan _
    apply ((settleEngineGeneratedProbe_uncalled a d args plan).ends w₁).with_run.mono
    · exact hrefused
    · intro _ w' hsettled
      refine ⟨[c], Eq.trans hsettled.1 hlog, .evaluated _ d c hcall ?_⟩
      intro _
      exact ⟨plan, w₁, hafter.symm, hsettled.2⟩

end Generated

section Routed

variable [Crypto]

/-- The engine call of one phase: its callback is the address the intent has for the phase, and in
PREPARE all of it is read-only. -/
structure PhaseCall (a : ExecuteCallbackAuthenticatedProbeV0) (d : EnvelopeData)
    (i : AuthenticatedIntent) (phase : UInt8) (callback : AccountInfo) (c : EngineCall CoreState) :
    Prop where
  programId : c.instruction.programId = a.engineProgram.key
  canonical : ∃ bump, canonicalCallback a i.intentDigest phase = .ok ⟨callback.key, bump⟩
  contained : CallContained Routed.config a.toEnvelope d a.remainingAccounts a.fixedEnvelopeKeys
    (decide (phase ≠ phasePrepare))
    [⟨a.engineState.key, false, decide (phase ≠ phasePrepare)⟩, ⟨callback.key, true, false⟩] c

/-- The first engine call of the routed Core. -/
structure PrimaryCall (env : Env Routed.config) (L : Ledger)
    (a : ExecuteCallbackAuthenticatedProbeV0) (args : ExecuteCallbackAuthenticatedProbeV0Args)
    (p : PreparedExecution) (c : EngineCall CoreState) : Prop where
  prepared : Routed.prepareExecution env L a args = .ok p
  before : c.before = L
  call : PhaseCall a p.d p.intent p.phase a.primaryCallback c

/-- From what the first call left, the settlement leads to `after` and `w₂`. -/
def SettlesFrom (a : ExecuteCallbackAuthenticatedProbeV0)
    (args : ExecuteCallbackAuthenticatedProbeV0Args) (p : PreparedExecution)
    (c : EngineCall CoreState) (after : EnvelopeData) (w₂ : Core.World) : Prop :=
  ∃ (settlement : AcceptedSettlement) (w₁ : Core.World), w₁.ledger = c.after ∧
    (settleAuthenticatedIntent a p.d args p.intent settlement).run w₁ = (.ok after, w₂)

/-- The second call `c'`, made where the settlement after `c` has ended. -/
structure CommitCall (a : ExecuteCallbackAuthenticatedProbeV0)
    (args : ExecuteCallbackAuthenticatedProbeV0Args) (p : PreparedExecution)
    (c : EngineCall CoreState) (after : EnvelopeData) (c' : EngineCall CoreState) : Prop where
  timing : args.timingMode = timingPrepareCommit
  settled : ∃ w₂, SettlesFrom a args p c after w₂ ∧ c'.before = w₂.ledger
  call : PhaseCall a after p.intent phaseCommit a.commitCallback c'

/-- The engine calls of a run of the routed Core: none where it stops before, and a run that
succeeds settles from what the first one left and, in PREPARE_COMMIT, makes the second. -/
inductive RoutedCalls (env : Env Routed.config) (L : Ledger)
    (a : ExecuteCallbackAuthenticatedProbeV0) (args : ExecuteCallbackAuthenticatedProbeV0Args) :
    Except Core.Error Unit → List (EngineCall CoreState) → Prop
  | stopped (e : Core.Error) : RoutedCalls env L a args (.error e) []
  | primary (r : Except Core.Error Unit) (p : PreparedExecution) (c : EngineCall CoreState) :
    PrimaryCall env L a args p c →
    (r = .ok () → args.timingMode ≠ timingPrepareCommit ∧
      ∃ after w₂, SettlesFrom a args p c after w₂) →
    RoutedCalls env L a args r [c]
  | commit (r : Except Core.Error Unit) (p : PreparedExecution) (c : EngineCall CoreState)
    (after : EnvelopeData) (c' : EngineCall CoreState) :
    PrimaryCall env L a args p c → CommitCall a args p c after c' →
    RoutedCalls env L a args r [c, c']

variable {env : Env Routed.config} {L : Ledger} {w w' w₁ w₂ : Core.World}
  {a : ExecuteCallbackAuthenticatedProbeV0} {args : ExecuteCallbackAuthenticatedProbeV0Args}
  {d after : EnvelopeData} {p : PreparedExecution} {i : AuthenticatedIntent} {phase : UInt8}
  {ix : Instruction}

theorem phaseInstruction_ok {ds : List Wire.CapabilityDescriptor}
    {request : Wire.Routed.EngineRequest} {callback : AccountInfo} {infos : List AccountInfo}
    (h : phaseInstruction L a ds request callback = .ok (ix, infos)) :
    ix.programId = a.engineProgram.key ∧
      ix.accounts = Routed.phaseMetas a callback ds request.binding.phase := by
  unfold phaseInstruction at h
  simp only [except_bind_ok_iff, require_ok_iff, except_pure_ok_iff, Prod.mk.injEq] at h
  obtain ⟨-, -, data, -, opaqueInfos, -, rfl, -⟩ := h
  exact ⟨rfl, rfl⟩

omit [Crypto] in
private theorem phaseMetas_eq (callback : AccountInfo) (ds : List Wire.CapabilityDescriptor) :
    Routed.phaseMetas a callback ds phase =
      [⟨a.engineState.key, false, decide (phase ≠ phasePrepare)⟩, ⟨callback.key, true, false⟩] ++
        ds.map opaqueMeta := by
  unfold Routed.phaseMetas AccountMeta.newReadonly AccountMeta.new
  by_cases hp : phase = phasePrepare
  · simp [hp]
  · simp [hp]

omit [Crypto] in
private theorem authorized_of_phase : (decide (primaryMode phase = .authorized)) =
    decide (phase ≠ phasePrepare) := by
  unfold primaryMode
  by_cases hp : phase = phasePrepare
  · simp [hp]
  · simp [hp]

/-- The opaque accounts of an intent go to a phase as its mode allows. -/
theorem intent_forwarded (hi : Routed.IntentOk L a d args phase i) (mode : CapabilityMode) :
    List.Forall₂ (Forwarded Routed.config L a.remainingAccounts a.fixedEnvelopeKeys
      (decide (mode = .authorized))) a.remainingAccounts
      ((phaseDescriptors i.opaqueDescriptors mode).map opaqueMeta) := by
  unfold phaseDescriptors
  rw [List.forall₂_map_right_iff, List.forall₂_map_right_iff]
  apply hi.admitted.imp
  intro info descriptor hadmitted
  apply hadmitted.forwarded
  · split
    · rfl
    · rfl
  · cases mode with
    | authorized => simp
    | readOnly => simp

/-- The engine state belongs to neither the Core nor the Token program. -/
theorem engineState_foreign (ha : Routed.AccountsOk L a d) :
    (L a.engineState.key).owner ≠ Routed.config.ID ∧
      (L a.engineState.key).owner ≠ tokenProgram := by
  constructor
  · rw [ha.bound.engineStateOwner]
    exact ha.bound.engineNotCore
  · exact ha.engineState_foreign

/-- What a phase sends: the instruction made for it, answered through its metas only. -/
structure PhaseSent (a : ExecuteCallbackAuthenticatedProbeV0)
    (ds : List Wire.CapabilityDescriptor) (request : Wire.Routed.EngineRequest)
    (callback : AccountInfo) (w w' : Core.World) (c : EngineCall CoreState) : Prop where
  before : c.before = w.ledger
  after : c.after = w'.ledger
  instruction : ∃ infos, phaseInstruction w.ledger a ds request callback = .ok (c.instruction, infos)
  writes : OnlyWrites c.instruction c.before c.after
  logged : engineCalls w'.log = engineCalls w.log ++ [c]

private theorem phaseSent_of_invoke {ds : List Wire.CapabilityDescriptor}
    {request : Wire.Routed.EngineRequest} {callback : AccountInfo} {caller infos : List AccountInfo}
    {pdaSigners : List Pubkey}
    (hix : phaseInstruction w.ledger a ds request callback = .ok (ix, infos))
    (hinvoke : (invokeSigned Routed.ID env.callee caller ix infos pdaSigners).run w = (.ok (), w')) :
    ∃ c, PhaseSent a ds request callback w w' c := by
  obtain ⟨c, hc, hbefore, hafter, -, hlog, -⟩ := invokeSigned_called hinvoke
  have hconfined := invokeSigned_confined Routed.config.ID_ne_token Routed.config.ID_ne_system
    hinvoke
  refine ⟨c, hbefore, hafter, ⟨infos, ?_⟩, ?_, hlog⟩
  · rw [hc]
    exact hix
  · rw [hc, hbefore, hafter]
    exact onlyWrites_of_confined hconfined

/-- A phase that comes to nothing has called nobody, or has been answered. -/
theorem invokeEnginePhase_calls (env : Env Routed.config) (w : Core.World)
    (a : ExecuteCallbackAuthenticatedProbeV0) (ds : List Wire.CapabilityDescriptor)
    (request : Wire.Routed.EngineRequest) (callback : AccountInfo) (bump : UInt8) :
    (Routed.invokeEnginePhase env a ds request callback bump).Ends w
      (fun _ w' => Uncalled w w' ∨ ∃ c, PhaseSent a ds request callback w w' c)
      (fun _ w' => ∃ c, PhaseSent a ds request callback w w' c) := by
  unfold Routed.invokeEnginePhase
  apply Exec.ends_get_bind
  apply Exec.ends_ofExcept_bind_of (fun _ _ => .inl (.refl w))
  intro sent hix
  apply Exec.ends_ofExcept_bind_of (fun _ _ => .inl (.refl w))
  intro signer _
  apply Exec.ends_mapError_bind_of
  · intro e w₁ hinvoke
    exact .inl (invokeSigned_uncalled hinvoke)
  · intro _ w₁ hinvoke
    have hsent := phaseSent_of_invoke hix hinvoke
    apply Exec.ends_get_bind
    apply Exec.ends_ofExcept_of
    · intro _ _
      exact .inr hsent
    · intro _ _
      exact hsent

private theorem primaryCall_of_sent {c : EngineCall CoreState}
    (hp : Routed.prepareExecution env w.ledger a args = .ok p)
    (h : PhaseSent a ((capabilityDescriptors w.ledger a.engineState p.intent.opaqueDescriptors
      (primaryMode p.phase)).drop 1) p.primaryRequest a.primaryCallback w w' c) :
    PrimaryCall env w.ledger a args p c := by
  obtain ⟨haccounts, -, hi, hrequest⟩ := Routed.prepareExecution_ok hp
  obtain ⟨infos, hix⟩ := h.instruction
  rw [Routed.capabilityDescriptors_drop] at hix
  obtain ⟨hprogram, hmetas⟩ := phaseInstruction_ok hix
  rw [hrequest.phase, phaseMetas_eq] at hmetas
  have hforwarded := intent_forwarded hi (primaryMode p.phase)
  rw [authorized_of_phase] at hforwarded
  refine ⟨hp, h.before, hprogram, ?_, ?_⟩
  · refine ⟨p.intent.primaryCallback.bump, ?_⟩
    rw [hi.primaryKey]
    exact hi.primaryCallback
  · apply callContained _ h.writes
    rw [h.before]
    apply contained_of_metas hmetas hforwarded
    · intro m hm hw
      simp only [List.mem_cons, List.not_mem_nil, or_false] at hm
      rcases hm with rfl | rfl
      · exact engineState_foreign haccounts
      · cases hw
    · intro hauth m hm
      simp only [List.mem_cons, List.not_mem_nil, or_false] at hm
      rcases hm with rfl | rfl
      · exact hauth
      · rfl
    · exact haccounts.bound.cached

/-- Where a commit follows, the first call was a PREPARE and changed nothing. -/
theorem PrimaryCall.unchanged {c : EngineCall CoreState} (h : PrimaryCall env L a args p c)
    (htiming : args.timingMode = timingPrepareCommit) : c.after = L := by
  obtain ⟨-, hterms, -, -⟩ := Routed.prepareExecution_ok h.prepared
  have hphase : p.phase = phasePrepare := by
    rcases Routed.primaryPhase_ok hterms.phase with ⟨hsingle, -⟩ | ⟨-, hprepare⟩
    · rw [htiming] at hsingle
      cases hsingle
    · exact hprepare
  have hcontained := h.call.contained
  rw [hphase] at hcontained
  rw [← h.before]
  exact hcontained.contained.unchanged hcontained.writes

/-- The settlement leaves owners and code alone, and the cache it hands on holds after it. -/
theorem settlesFrom_cached {c : EngineCall CoreState} (haccounts : Routed.AccountsOk L a p.d)
    (h : SettlesFrom a args p c after w₂) (hsame : c.after = L) :
    SameOwnership L w₂.ledger ∧ Cached Routed.config w₂.ledger a.toEnvelope after := by
  obtain ⟨settlement, w₁, hw₁, hsettle⟩ := h
  rw [hsame] at hw₁
  have htokens : TokensAt w₁.ledger a.toEnvelope p.d := by
    rw [hw₁]
    exact haccounts.bound.tokensAt
  obtain ⟨hsettled, -⟩ :=
    Routed.settleAuthenticatedIntent_ok hsettle htokens haccounts.tokenKeys_nodup
  constructor
  · simp only [Routed.settleAuthenticatedIntent, Exec.bind_ok_iff, Exec.ofExcept_ok_iff,
      Exec.pure_ok_iff] at hsettle
    obtain ⟨_, _, ⟨-, rfl⟩, _, _, hrun, _, _, ⟨-, rfl⟩, -, rfl⟩ := hsettle
    rw [← hw₁]
    exact settle_sameOwnership hrun
  · apply hsettled.cached
    rw [hw₁]
    exact haccounts.bound.cached

private theorem commitCall_of_sent {c c' : EngineCall CoreState} {settlementDigest capability : Hash}
    {preSequence : UInt64} {request : Wire.Routed.EngineRequest}
    (hprimary : PrimaryCall env L a args p c) (htiming : args.timingMode = timingPrepareCommit)
    (hsettle : SettlesFrom a args p c after w₂)
    (hrequest : Routed.phaseRequest w₂.ledger a p.d args p.intent phaseCommit .authorized
      settlementDigest preSequence = .ok (capability, request))
    (h : PhaseSent a ((capabilityDescriptors w₂.ledger a.engineState p.intent.opaqueDescriptors
      .authorized).drop 1) request a.commitCallback w₂ w' c') :
    CommitCall a args p c after c' := by
  obtain ⟨haccounts, -, hi, -⟩ := Routed.prepareExecution_ok hprimary.prepared
  obtain ⟨hownership, hcached⟩ :=
    settlesFrom_cached haccounts hsettle (hprimary.unchanged htiming)
  have hphase := (Routed.phaseRequest_ok hrequest).1.phase
  obtain ⟨infos, hix⟩ := h.instruction
  rw [Routed.capabilityDescriptors_drop] at hix
  obtain ⟨hprogram, hmetas⟩ := phaseInstruction_ok hix
  rw [hphase, phaseMetas_eq] at hmetas
  have hforwarded : List.Forall₂ (Forwarded Routed.config w₂.ledger a.remainingAccounts
      a.fixedEnvelopeKeys true) a.remainingAccounts
      ((phaseDescriptors p.intent.opaqueDescriptors .authorized).map opaqueMeta) :=
    (intent_forwarded hi .authorized).imp fun _ _ hf => hf.congr hownership
  refine ⟨htiming, ⟨w₂, hsettle, h.before⟩, hprogram, ?_, ?_⟩
  · refine ⟨p.intent.commitCallback.bump, ?_⟩
    rw [hi.commitKey]
    exact hi.commitCallback
  · apply callContained _ h.writes
    rw [h.before]
    apply contained_of_metas hmetas hforwarded
    · intro m hm hw
      simp only [List.mem_cons, List.not_mem_nil, or_false] at hm
      rcases hm with rfl | rfl
      · rw [hownership.owner]
        exact engineState_foreign haccounts
      · cases hw
    · intro hauth
      cases hauth
    · exact hcached

private theorem settleAuthenticatedIntent_uncalled (a : ExecuteCallbackAuthenticatedProbeV0)
    (d : EnvelopeData) (args : ExecuteCallbackAuthenticatedProbeV0Args) (i : AuthenticatedIntent)
    (settlement : AcceptedSettlement) :
    (settleAuthenticatedIntent a d args i settlement).Leaves Uncalled := by
  unfold settleAuthenticatedIntent
  apply Exec.leaves_ofExcept_bind Uncalled.refl
  intro spendSigner
  apply Exec.Leaves.bind .trans (settle_uncalled _ _ _ _ _ _)
  intro after
  apply Exec.leaves_ofExcept_bind Uncalled.refl
  intro _
  exact Exec.leaves_pure Uncalled.refl _

omit [Crypto] in
private theorem recordExecution_uncalled (a : ExecuteCallbackAuthenticatedProbeV0)
    (args : ExecuteCallbackAuthenticatedProbeV0Args) (p : PreparedExecution)
    (receipt : Wire.Routed.EngineReceipt) (receiptDigest : Hash) (settlement : AcceptedSettlement)
    (after : EnvelopeData) (settlementDigest : Hash) (outcome : CommitOutcome) :
    (Routed.recordExecution a args p receipt receiptDigest settlement after settlementDigest
      outcome).Leaves Uncalled := by
  unfold Routed.recordExecution
  apply Exec.Leaves.bind .trans (writeAccounted_uncalled _ _ _ _ _)
  intro _
  apply Exec.leaves_ofExcept_bind Uncalled.refl
  intro count
  exact emit_uncalled _

/-- What the commit phase adds to the calls: the second call in PREPARE_COMMIT, else nothing. -/
theorem commitPhase_calls {c : EngineCall CoreState} {receipt : Wire.Routed.EngineReceipt}
    {settlementDigest : Hash} (hprimary : PrimaryCall env L a args p c)
    (hsettle : SettlesFrom a args p c after w₂) :
    (Routed.commitPhase env a p.d args p.intent receipt settlementDigest).Ends w₂
      (fun _ w' => Uncalled w₂ w' ∨
        ∃ c', CommitCall a args p c after c' ∧ engineCalls w'.log = engineCalls w₂.log ++ [c'])
      (fun _ w' => args.timingMode ≠ timingPrepareCommit ∧ Uncalled w₂ w' ∨
        ∃ c', CommitCall a args p c after c' ∧ engineCalls w'.log = engineCalls w₂.log ++ [c']) := by
  unfold Routed.commitPhase
  split
  · next htiming =>
    unfold Routed.commit
    apply Exec.ends_get_bind
    apply Exec.ends_ofExcept_bind_of (fun _ _ => .inl (.refl w₂))
    intro requested hrequest
    have hcommit : ∀ w', (∃ c', PhaseSent a ((capabilityDescriptors w₂.ledger a.engineState
        p.intent.opaqueDescriptors .authorized).drop 1) requested.2 a.commitCallback w₂ w' c') →
        ∃ c', CommitCall a args p c after c' ∧ engineCalls w'.log = engineCalls w₂.log ++ [c'] := by
      intro w' hsent
      obtain ⟨c', hc'⟩ := hsent
      exact ⟨c', commitCall_of_sent hprimary htiming hsettle hrequest hc', hc'.logged⟩
    apply Exec.ends_bind_iff.mpr
    apply (invokeEnginePhase_calls env w₂ a _ requested.2 a.commitCallback _).mono
    · intro _ w' hend
      exact hend.imp_right (hcommit w')
    · intro receipt' w' hsent
      have hc' := hcommit w' hsent
      iterate 5
        apply Exec.ends_ofExcept_bind_of (fun _ _ => .inr hc')
        intro _ _
      exact .inr hc'
  · next htiming =>
    exact .inl ⟨htiming, .refl w₂⟩

/-- What follows an accepted primary receipt adds the second call to the first, or nothing. -/
private theorem settlement_calls {c : EngineCall CoreState} {receipt : Wire.Routed.EngineReceipt}
    {receiptDigest : Hash} {settlement : AcceptedSettlement}
    (hprimary : PrimaryCall env L a args p c) (hledger : w₁.ledger = c.after) :
    (do
      let after ← settleAuthenticatedIntent a p.d args p.intent settlement
      let settlementDigest ← .ofExcept (liftWire .panic
        (Wire.Routed.computeSettlementDigest (Routed.settlementBinding after args settlement
          p.intent.intentDigest p.primaryRequest.executionDigest receiptDigest)))
      let outcome ← Routed.commitPhase env a p.d args p.intent receipt settlementDigest
      Routed.recordExecution a args p receipt receiptDigest settlement after settlementDigest
        outcome).Ends w₁
      (fun e w' => ∃ calls, engineCalls w'.log = engineCalls w₁.log ++ calls ∧
        RoutedCalls env L a args (.error e) (c :: calls))
      (fun _ w' => ∃ calls, engineCalls w'.log = engineCalls w₁.log ++ calls ∧
        RoutedCalls env L a args (.ok ()) (c :: calls)) := by
  have hone : ∀ e w', Uncalled w₁ w' → ∃ calls,
      engineCalls w'.log = engineCalls w₁.log ++ calls ∧
        RoutedCalls env L a args (.error e) (c :: calls) := by
    intro e w' hsame
    refine ⟨[], ?_, .primary _ p c hprimary ?_⟩
    · rw [List.append_nil]
      exact hsame
    · intro hok
      cases hok
  apply Exec.ends_bind_iff.mpr
  apply ((settleAuthenticatedIntent_uncalled a p.d args p.intent settlement).ends w₁).with_run.mono
  · exact hone
  · intro after w₂ hsettled
    have hsame := hsettled.1
    have hsettle : SettlesFrom a args p c after w₂ := ⟨settlement, w₁, hledger, hsettled.2⟩
    have htwo : ∀ (r : Except Core.Error Unit) (w₃ : Core.World) (c' : EngineCall CoreState),
        CommitCall a args p c after c' → engineCalls w₃.log = engineCalls w₂.log ++ [c'] →
        ∃ calls, engineCalls w₃.log = engineCalls w₁.log ++ calls ∧
          RoutedCalls env L a args r (c :: calls) := by
      intro r w₃ c' hcommit hlog
      refine ⟨[c'], ?_, .commit r p c after c' hprimary hcommit⟩
      rw [hlog, hsame]
    apply Exec.ends_ofExcept_bind_of (fun e _ => hone e w₂ hsame)
    intro settlementDigest _
    apply Exec.ends_bind_iff.mpr
    apply (commitPhase_calls hprimary hsettle).mono
    · intro e w₃ hend
      rcases hend with hquiet | ⟨c', hcommit, hlog⟩
      · exact hone e w₃ (hsame.trans hquiet)
      · exact htwo _ w₃ c' hcommit hlog
    · intro outcome w₃ hend
      apply ((recordExecution_uncalled a args p receipt receiptDigest settlement after
        settlementDigest outcome).ends w₃).mono
      · intro e w' hquiet
        rcases hend with ⟨-, hsingle⟩ | ⟨c', hcommit, hlog⟩
        · exact hone e w' ((hsame.trans hsingle).trans hquiet)
        · exact htwo _ w' c' hcommit (Eq.trans hquiet hlog)
      · intro _ w' hquiet
        rcases hend with ⟨htiming, hsingle⟩ | ⟨c', hcommit, hlog⟩
        · refine ⟨[], ?_, .primary _ p c hprimary ?_⟩
          · rw [List.append_nil]
            exact (hsame.trans hsingle).trans hquiet
          · intro _
            exact ⟨htiming, after, w₂, hsettle⟩
        · exact htwo _ w' c' hcommit (Eq.trans hquiet hlog)

/-- However a run of the routed Core ends, its engine calls are contained. -/
theorem routed_calls (env : Env Routed.config) (w : Core.World)
    (a : ExecuteCallbackAuthenticatedProbeV0) (args : ExecuteCallbackAuthenticatedProbeV0Args) :
    (handleExecuteCallbackAuthenticatedProbeV0 env a args).Ends w
      (fun e w' => ∃ calls, engineCalls w'.log = engineCalls w.log ++ calls ∧
        RoutedCalls env w.ledger a args (.error e) calls)
      (fun _ w' => ∃ calls, engineCalls w'.log = engineCalls w.log ++ calls ∧
        RoutedCalls env w.ledger a args (.ok ()) calls) := by
  have hstopped : ∀ e w₁, Uncalled w w₁ → ∃ calls,
      engineCalls w₁.log = engineCalls w.log ++ calls ∧
        RoutedCalls env w.ledger a args (.error e) calls := by
    intro e w₁ hsame
    refine ⟨[], ?_, .stopped e⟩
    rw [List.append_nil]
    exact hsame
  unfold handleExecuteCallbackAuthenticatedProbeV0
  apply Exec.ends_get_bind
  apply Exec.ends_ofExcept_bind_of (fun e _ => hstopped e w (.refl w))
  intro p hp
  have hfirst : ∀ e w₁, (∃ c, PhaseSent a ((capabilityDescriptors w.ledger a.engineState
      p.intent.opaqueDescriptors (primaryMode p.phase)).drop 1) p.primaryRequest a.primaryCallback
      w w₁ c) → ∃ calls, engineCalls w₁.log = engineCalls w.log ++ calls ∧
        RoutedCalls env w.ledger a args (.error e) calls := by
    intro e w₁ hsent
    obtain ⟨c, hc⟩ := hsent
    refine ⟨[c], hc.logged, .primary _ p c (primaryCall_of_sent hp hc) ?_⟩
    intro hok
    cases hok
  apply Exec.ends_bind_iff.mpr
  apply (invokeEnginePhase_calls env w a _ p.primaryRequest a.primaryCallback _).mono
  · intro e w₁ hend
    rcases hend with hsame | hsent
    · exact hstopped e w₁ hsame
    · exact hfirst e w₁ hsent
  · intro receipt w₁ hsent
    apply Exec.ends_ofExcept_bind_of (fun e _ => hfirst e w₁ hsent)
    intro accepted _
    obtain ⟨c, hc⟩ := hsent
    have hlogged : ∀ (r : Except Core.Error Unit) (w' : Core.World),
        (∃ calls, engineCalls w'.log = engineCalls w₁.log ++ calls ∧
          RoutedCalls env w.ledger a args r (c :: calls)) →
        ∃ calls, engineCalls w'.log = engineCalls w.log ++ calls ∧
          RoutedCalls env w.ledger a args r calls := by
      intro r w' hend
      obtain ⟨calls, hlog, hcalls⟩ := hend
      refine ⟨c :: calls, ?_, hcalls⟩
      rw [hlog, hc.logged, List.append_assoc]
      rfl
    apply (settlement_calls (primaryCall_of_sent hp hc) hc.after.symm).mono
    · intro e w' hend
      exact hlogged _ w' hend
    · intro _ w' hend
      exact hlogged _ w' hend

end Routed

section Containment

variable [Crypto]

/-- Engine containment: whatever the engine does and however a run ends, every engine call the run
has made lists nothing of the Core or of the Token program as writable, and the balances the Core
has cached are the real ones when it returns. -/
theorem engine_contained :
    (∀ (env : Env Generated.config) (w w' : Core.World) (a : ExecuteEngineGeneratedProbeV0)
      (args : ExecuteEngineGeneratedProbeV0Args) (r : Except Core.Error Unit),
      (handleExecuteEngineGeneratedProbeV0 env a args).run w = (r, w') →
        ∃ calls, engineCalls w'.log = engineCalls w.log ++ calls ∧
          GeneratedCalls w w' a args r calls) ∧
    ∀ (env : Env Routed.config) (w w' : Core.World) (a : ExecuteCallbackAuthenticatedProbeV0)
      (args : ExecuteCallbackAuthenticatedProbeV0Args) (r : Except Core.Error Unit),
      (handleExecuteCallbackAuthenticatedProbeV0 env a args).run w = (r, w') →
        ∃ calls, engineCalls w'.log = engineCalls w.log ++ calls ∧
          RoutedCalls env w.ledger a args r calls := by
  constructor
  · intro env w w' a args r h
    have hends := generated_calls env w a args
    cases r with
    | error e => exact hends.of_error h
    | ok _ => exact hends.of_ok h
  · intro env w w' a args r h
    have hends := routed_calls env w a args
    cases r with
    | error e => exact hends.of_error h
    | ok _ => exact hends.of_ok h

end Containment

section Sample

open Routed

attribute [local instance] Routed.Sample.crypto

/-- The two-phase sample logs both of its calls; the first changes nothing and the second is made
where the settlement has ended. -/
theorem engine_contained_sample : ∃ (p : PreparedExecution) (after : EnvelopeData)
    (c c' : EngineCall CoreState),
    engineCalls (Sample.executed timingPrepareCommit Sample.twoPhase).log =
      engineCalls (Sample.authorized timingPrepareCommit Sample.twoPhase).log ++ [c, c'] ∧
    c.after = (Sample.authorized timingPrepareCommit Sample.twoPhase).ledger ∧
    CommitCall (Sample.execute Sample.twoPhase)
      (Sample.executeArgs timingPrepareCommit Sample.twoPhase) p c after c' := by
  obtain ⟨-, hrouted⟩ := engine_contained
  obtain ⟨calls, hlog, hcalls⟩ := hrouted Sample.env _ _ _ _ _ sample_executes
  cases hcalls with
  | primary _ p c hprimary hdone =>
    obtain ⟨hsingle, -⟩ := hdone rfl
    exact absurd rfl hsingle
  | commit _ p c after c' hprimary hcommit =>
    exact ⟨p, after, c, c', hlog, hprimary.unchanged rfl, hcommit⟩

end Sample

end ProgrammableSolana.Cores
