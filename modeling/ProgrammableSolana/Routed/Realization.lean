import ProgrammableSolana.Core.CallTree
import ProgrammableSolana.Routed.CallTree
import ProgrammableSolana.Routed.Forwarding
import ProgrammableSolana.Routed.Reference

/-! Executions as the Core's model runs them are trees of calls: with the reference engine as the one
program that is called, what is submitted and its engine calls make a lawful one. -/
namespace ProgrammableSolana.Routed

open ProgrammableSolana.Lib ProgrammableSolana.Solana ProgrammableSolana.Core
open ProgrammableSolana.Engines
open ProgrammableSolana.Wire.Routed (EngineRequest timingSingle timingPrepareCommit phaseTransition
  phasePrepare phaseCommit)

variable [Crypto]

section Calls

variable {env : Env config} {a : ExecuteCallbackAuthenticatedProbeV0}

private theorem invokeEnginePhase_traced (ds : List Wire.CapabilityDescriptor) (request : EngineRequest)
    (callback : AccountInfo) (bump : UInt8) :
    (invokeEnginePhase env a ds request callback bump).Carries (Traced env.callee) := by
  unfold invokeEnginePhase
  apply Exec.carries_get_bind
  intro w
  apply Exec.carries_ofExcept_bind
  intro p
  apply Exec.carries_ofExcept_bind
  intro signer
  apply Exec.Carries.bind Traced.trans ((invokeSigned_traced _ _ _ _).mapError _)
  intro _
  apply Exec.carries_get_bind
  intro w
  exact Exec.carries_ofExcept .refl _

private theorem commitPhase_traced (d : EnvelopeData) (args : ExecuteCallbackAuthenticatedProbeV0Args)
    (i : AuthenticatedIntent) (receipt : Wire.Routed.EngineReceipt) (settlementDigest : Hash) :
    (commitPhase env a d args i receipt settlementDigest).Carries (Traced env.callee) := by
  unfold commitPhase
  split
  · unfold commit
    apply Exec.carries_get_bind
    intro w
    apply Exec.carries_ofExcept_bind
    intro p
    apply Exec.Carries.bind Traced.trans (invokeEnginePhase_traced _ _ _ _)
    intro receipt
    repeat
      apply Exec.carries_ofExcept_bind
      intro _
    exact Exec.carries_pure .refl _
  · exact Exec.carries_pure .refl _

private theorem settleAuthenticatedIntent_traced {callee : Callee CoreState ID} (d : EnvelopeData)
    (args : ExecuteCallbackAuthenticatedProbeV0Args) (i : AuthenticatedIntent)
    (settlement : AcceptedSettlement) :
    (settleAuthenticatedIntent a d args i settlement).Carries (Traced callee) := by
  unfold settleAuthenticatedIntent
  apply Exec.carries_ofExcept_bind
  intro signer
  apply Exec.Carries.bind Traced.trans (settle_traced _ _ _ _ _ _)
  intro after
  apply Exec.carries_ofExcept_bind
  intro _
  exact Exec.carries_pure .refl _

private theorem recordExecution_traced {callee : Callee CoreState ID}
    (args : ExecuteCallbackAuthenticatedProbeV0Args) (p : PreparedExecution)
    (receipt : Wire.Routed.EngineReceipt) (receiptDigest : Hash) (s : AcceptedSettlement)
    (after : EnvelopeData) (settlementDigest : Hash) (outcome : CommitOutcome) :
    (recordExecution a args p receipt receiptDigest s after settlementDigest outcome).Carries
      (Traced callee) := by
  unfold recordExecution
  apply Exec.Carries.bind Traced.trans (writeAccounted_traced _ _ _ _ _)
  intro _
  apply Exec.carries_ofExcept_bind
  intro count
  exact emit_traced _

private theorem execute_traced (args : ExecuteCallbackAuthenticatedProbeV0Args) :
    (handleExecuteCallbackAuthenticatedProbeV0 env a args).Carries (Traced env.callee) := by
  unfold handleExecuteCallbackAuthenticatedProbeV0
  apply Exec.carries_get_bind
  intro w
  apply Exec.carries_ofExcept_bind
  intro p
  apply Exec.Carries.bind Traced.trans (invokeEnginePhase_traced _ _ _ _)
  intro receipt
  apply Exec.carries_ofExcept_bind
  rintro ⟨receiptDigest, settlement⟩
  apply Exec.Carries.bind Traced.trans (settleAuthenticatedIntent_traced _ _ _ _)
  intro after
  apply Exec.carries_ofExcept_bind
  intro settlementDigest
  apply Exec.Carries.bind Traced.trans (commitPhase_traced _ _ _ _ _)
  intro outcome
  exact recordExecution_traced _ _ _ _ _ _ _ _

end Calls

section Engine

/-- The reference engine where it calls no helper. -/
def engine : Callee CoreState ID := RoutedPlan.respond fun _ _ => none

private theorem engine_evaluates {c : EngineCall CoreState} (h : c.Invoked CoreEvent engine) :
    ∃ e, RoutedPlan.process c.before c.instruction.presented c.instruction.data = .ok e ∧
      e.helper = none ∧ c.returned = e.returned.map (fun data => (RoutedPlan.ID, data)) ∧
      ∃ w w' : Core.World, (performAll (c.instruction.privileges ID)
          (RoutedPlan.storeActions e.stored : List (Action ID))).run w = (.ok (), w') ∧
        c.before = w.ledger ∧ c.after = w'.ledger := by
  obtain ⟨response, w, w', hresponse, hperform, hbefore, hafter, hreturned⟩ := h
  obtain ⟨e, nested, hprocess, hnested, rfl⟩ := RoutedPlan.respond_eq_some_iff.mp hresponse
  have hhelper : e.helper = none := by
    cases hcall : e.helper with
    | none => rfl
    | some call =>
      rw [hcall] at hnested
      cases hnested
  rw [hhelper] at hnested
  obtain rfl := Option.some.inj hnested
  refine ⟨e, hprocess, hhelper, ?_, w, w', hperform, hbefore, hafter⟩
  rw [hreturned]
  cases e.returned <;> rfl

/-- What the engine does as a callee it does as a program. -/
theorem engine_runs {c : EngineCall CoreState} (h : c.Invoked CoreEvent engine)
    (callers : List (Frame CoreState CoreEvent)) :
    Runs RoutedPlan.ID (fun _ L => RoutedPlan.entry L) callers (c.leaf CoreEvent) ∧
      OwnStep RoutedPlan.ID c.before c.after := by
  obtain ⟨e, hprocess, hhelper, hreturned, w, w', hperform, hbefore, hafter⟩ := engine_evaluates h
  obtain ⟨engineState, _, _, request, state, _, _, -, -, hevaluates⟩ :=
    RoutedPlan.process_ok hprocess
  have hexecutable := hevaluates.authenticated.privileged.2
  have hstored : e.stored = none ∨ ∃ next, e.stored = some (engineState.key, next) := by
    have houtcome := hevaluates.outcome
    split at houtcome
    · exact .inl houtcome.2
    · obtain ⟨next, -, hnext, -⟩ := houtcome
      exact .inr ⟨next, hnext⟩
  have hledger : c.after = e.outcome.store c.before RoutedPlan.ID ∧
      ∀ p ∈ e.outcome.stored, (c.before p.1).owner = RoutedPlan.ID := by
    rw [hafter, hbefore]
    simp only [hbefore] at hexecutable
    unfold RoutedPlan.Evaluation.outcome
    rcases hstored with hnone | ⟨next, hnext⟩
    · rw [hnone] at hperform ⊢
      obtain ⟨-, rfl⟩ := Exec.pure_ok_iff.mp hperform
      exact ⟨rfl, by simp⟩
    · rw [hnext] at hperform ⊢
      obtain ⟨hwritten, howner⟩ := performAll_write_ok hperform hexecutable
      refine ⟨hwritten, ?_⟩
      simpa using howner
  have hown : OwnStep RoutedPlan.ID c.before c.after := by
    rw [hledger.1]
    apply Outcome.store_ownStep
    intro p hp
    exact .inl (hledger.2 p hp)
  refine ⟨⟨e.outcome, RoutedPlan.entry_of_process hprocess, ?_⟩, hown⟩
  unfold Outcome.Ran RoutedPlan.Evaluation.outcome
  rw [hhelper]
  exact ⟨hledger.1, hreturned⟩

end Engine

section Submissions

/-- Between its engine calls an execution changes accounts of the Core and of the Token program. -/
theorem CallbackAuthenticated.interleaved {env : Env config} {w w₁ w₂ w₃ w' : Core.World}
    {a : ExecuteCallbackAuthenticatedProbeV0} {args : ExecuteCallbackAuthenticatedProbeV0Args}
    {x : Stages} (h : CallbackAuthenticated env w w₁ w₂ w₃ w' a args x)
    (hlog : engineCalls w.log = []) :
    CallTree.Interleaved (OwnStep ID) w.ledger
      ((engineCalls w'.log).map fun c => (c.before, c.after)) w'.ledger := by
  have hconf : Confined config.ID (a.engineWritable x.intent.opaqueDescriptors) w.ledger
      w₁.ledger := h.primary.called.confined_engine
  have htokens : TokensAt w₁.ledger a.toEnvelope x.d := by
    apply tokensAt_of_confined h.accounts.bound.tokensAt hconf
    intro k hk
    exact h.intent.engine_foreign h.accounts k hk
  have hsettled : OwnStep ID w₁.ledger w₂.ledger := h.settled.ownStep htokens
  have hstored : ∀ L₃ : Ledger, Confined config.ID (a.engineWritable x.intent.opaqueDescriptors)
      w₂.ledger L₃ → OwnStep ID L₃ (accountedLedger L₃ a.toEnvelope x.d
        x.settlement.postAccountedA x.settlement.postAccountedB x.settlement.postAccountedFeeA) := by
    intro L₃ hconf₃
    have hdomain := h.executed.owner_before_write hconf h.settled hconf₃ h.accounts.bound.domain
    have hfee := h.executed.owner_before_write hconf h.settled hconf₃ h.accounts.bound.feeLedger
    exact accountedLedger_ownStep hdomain hfee _ _ _
  obtain ⟨e, hevent, -⟩ := h.emitted
  have hfirst : engineCalls w₂.log = [x.call] := by
    rw [h.calls₂, h.primary.called.calls, hlog]
    rfl
  rw [hevent, engineCalls_append, engineCalls_emitted, engineCalls_nil, List.append_nil, h.stored]
  rcases h.committed with ⟨-, rfl⟩ | ⟨-, request, receipt, c, hcommitted⟩
  · rw [hfirst]
    simp only [List.map_cons, List.map_nil, CallTree.Interleaved.cons_iff,
      CallTree.Interleaved.nil_iff, h.primary.called.before, h.primary.called.after]
    exact ⟨.refl _, hsettled.trans _ _ _ (hstored _ (.refl _))⟩
  · rw [hcommitted.accepted.called.calls, hfirst]
    simp only [List.cons_append, List.nil_append, List.map_cons, List.map_nil,
      CallTree.Interleaved.cons_iff, CallTree.Interleaved.nil_iff, h.primary.called.before,
      h.primary.called.after, hcommitted.accepted.called.before, hcommitted.accepted.called.after]
    exact ⟨.refl _, hsettled, hstored _ hcommitted.accepted.called.confined_engine⟩

/-- An engine that answers as the reference engine is it: the state it loads belongs to it. -/
theorem engineProgram_eq {env : Env config} {w w₁ w₂ w₃ w' : Core.World}
    {a : ExecuteCallbackAuthenticatedProbeV0} {args : ExecuteCallbackAuthenticatedProbeV0Args}
    {x : Stages} (h : CallbackAuthenticated env w w₁ w₂ w₃ w' a args x)
    (hinvoked : ∀ c ∈ engineCalls w'.log, c.Invoked CoreEvent engine) :
    a.engineProgram.key = RoutedPlan.ID := by
  obtain ⟨cs, hcalls⟩ := h.calls
  have hmem : x.call ∈ engineCalls w'.log := by
    rw [hcalls]
    simp
  obtain ⟨e, hprocess, -⟩ := engine_evaluates (hinvoked x.call hmem)
  obtain ⟨engineState, _, _, _, _, _, _, hpresented, -, hevaluates⟩ :=
    RoutedPlan.process_ok hprocess
  obtain ⟨engineState', _, _, hpresented', hkey, -⟩ := h.primary.called.presented
  obtain ⟨rfl, -⟩ := List.cons_eq_cons.mp (hpresented.symm.trans hpresented')
  have hload : RoutedPlan.loadEngineState x.call.before engineState.key = .ok _ :=
    hevaluates.authenticated.loaded
  have howner := RoutedPlan.loadEngineState_owner hload
  rw [h.primary.called.before, hkey, h.accounts.bound.engineStateOwner] at howner
  exact howner

private theorem submitted_execution {slot : UInt64} {ix : Instruction} {L : Ledger} {w' : Core.World}
    (hdata : ix.data.take 8 = executeCallbackAuthenticatedProbeV0Discriminator.toList)
    (hrun : ((entry slot engine).submit ix).run ⟨L, none, []⟩ = (.ok (), w')) :
    ∃ a args x w₁ w₂ w₃, CallbackAuthenticated ⟨slot, 1, engine⟩ ⟨L, none, []⟩ w₁ w₂ w₃ w' a args x ∧
      Traced engine ⟨L, none, []⟩ w' := by
  unfold Program.submit Program.enter at hrun
  simp only [Exec.bind_ok_iff, Exec.modify_ok_iff] at hrun
  obtain ⟨_, _, rfl, hrun⟩ := hrun
  obtain ⟨a, args, -, hexecute⟩ := processInstruction_execute_ok hdata hrun
  obtain ⟨w₁, w₂, w₃, x, hx⟩ := execute_ok hexecute
  exact ⟨a, args, x, w₁, w₂, w₃, hx, execute_traced args _ _ _ hexecute⟩

private theorem submitted_called {slot : UInt64} {ix : Instruction} {L : Ledger} {w' : Core.World}
    (hdata : ix.data.take 8 = executeCallbackAuthenticatedProbeV0Discriminator.toList)
    (hrun : ((entry slot engine).submit ix).run ⟨L, none, []⟩ = (.ok (), w')) :
    engineCalls w'.log ≠ [] ∧ ∀ c ∈ engineCalls w'.log, c.Invoked CoreEvent engine ∧
      c.instruction.programId = RoutedPlan.ID := by
  obtain ⟨a, args, x, w₁, w₂, w₃, hx, cs, hlog, hinvoked, -⟩ := submitted_execution hdata hrun
  have hinvoked' : ∀ c ∈ engineCalls w'.log, c.Invoked CoreEvent engine := by
    intro c hc
    rw [hlog] at hc
    exact hinvoked c hc
  constructor
  · obtain ⟨cs', hcalls⟩ := hx.calls
    rw [hcalls]
    simp
  · intro c hc
    obtain ⟨request, hphase⟩ := hx.phase_of_mem rfl hc
    refine ⟨hinvoked' c hc, ?_⟩
    rw [hphase.programId]
    exact engineProgram_eq hx hinvoked'

/-- An execution that goes through is, with its engine calls, a lawful tree. -/
theorem submission_lawful {slot : UInt64} {ix : Instruction} {L : Ledger} {w' : Core.World}
    (hid : ix.programId = ID)
    (hdata : ix.data.take 8 = executeCallbackAuthenticatedProbeV0Discriminator.toList)
    (hrun : ((entry slot engine).submit ix).run ⟨L, none, []⟩ = (.ok (), w'))
    (hsigners : ∀ m ∈ ix.accounts, m.isSigner = true → Crypto.onCurve m.pubkey = true)
    {derived : Set Derivation} (hderived : addressed ⊆ derived) :
    Lawful derived (Behaves derived) (submitted ix L w') := by
  obtain ⟨a, args, x, w₁, w₂, w₃, hx, htraced⟩ := submitted_execution hdata hrun
  obtain ⟨cs, hlog, -, hreturned⟩ := htraced
  obtain ⟨-, hcalled⟩ := submitted_called hdata hrun
  apply Submitted.lawful
  constructor
  · exact hsigners
  · intro c hc key hkey
    right
    obtain ⟨request, hphase⟩ := hx.phase_of_mem rfl hc
    obtain ⟨bump, haddress⟩ := CallbackScope.address_of_signed
      (f := (c.leaf CoreEvent).frame) hphase hkey
    have hoccurs := hderived (CallbackScope.derivation_addressed haddress)
    exact ⟨_, hoccurs, hid.symm, CallbackScope.derivation_address haddress⟩
  · intro c hc
    obtain ⟨hinvoked, hid'⟩ := hcalled c hc
    obtain ⟨-, hown⟩ := engine_runs hinvoked []
    obtain ⟨e, -, -, hfrom, -⟩ := engine_evaluates hinvoked
    constructor
    · apply CallTree.Interleaved.nil_iff.mpr
      rw [← hid'] at hown
      exact hown
    · intro p data hdata
      left
      have hdata' : c.returned = some (p, data) := hdata
      rw [hfrom, Option.map_eq_some_iff] at hdata'
      obtain ⟨_, -, hpair⟩ := hdata'
      exact (Prod.mk.inj hpair).1.symm.trans hid'.symm
  · rw [hid]
    exact hx.interleaved rfl
  · intro p data hdata
    rcases hreturned with hsame | hnone | ⟨c, hc, hsame⟩
    · rw [hsame] at hdata
      cases hdata
    · rw [hnone] at hdata
      cases hdata
    · refine ⟨c, ?_, hsame.trans hdata⟩
      rw [hlog]
      exact hc
  · have hcore : (submitted ix L w').frame.programId = ID := hid
    refine ⟨fun _ => ⟨slot, engine, w', hrun, rfl, rfl, submitted_calls.symm, rfl⟩, ?_, ?_,
      fun _ _ _ _ haddress => hderived (CallbackScope.derivation_addressed haddress)⟩
    · rw [hcore]
      intro hengine
      exact absurd hengine (by decide)
    · rw [hcore]
      intro hhelper
      exact absurd hhelper (by decide)
  · intro c hc
    obtain ⟨hinvoked, hid'⟩ := hcalled c hc
    have hengine' : (c.leaf CoreEvent).frame.programId = RoutedPlan.ID := hid'
    refine ⟨?_, fun _ => (engine_runs hinvoked _).1, ?_,
      fun _ _ _ _ haddress => hderived (CallbackScope.derivation_addressed haddress)⟩
    · rw [hengine']
      intro hcore'
      exact absurd hcore' (by decide)
    · rw [hengine']
      intro hhelper
      exact absurd hhelper (by decide)

end Submissions

end ProgrammableSolana.Routed

namespace ProgrammableSolana.Routed.Sample

open ProgrammableSolana.Lib ProgrammableSolana.Solana ProgrammableSolana.Core
open ProgrammableSolana.Core.Sample ProgrammableSolana.Engines
open ProgrammableSolana.Wire.Routed (timingPrepareCommit)

/-- The digests of the sample where whatever else is hashed is on the curve. -/
@[reducible]
def collisionFree : Crypto := .ofKnown (digests config market ++
  executionDigests timingPrepareCommit twoPhase) [user, engineState, Bytes.zero 32]

attribute [local instance] collisionFree

theorem pdaCollisionFree : PdaCollisionFree addressed :=
  pdaCollisionFree_ofKnown (by decide +kernel) (by decide +kernel)

def submission : Instruction := ⟨ID, HostileRouter.sampleMetas, HostileRouter.sampleData⟩

def submissionLedger : Ledger :=
  Function.update HostileRouter.sampleWorld.ledger systemProgram program

def submissionWorld : Core.World :=
  ((entry 50 engine).submit submission).final ⟨submissionLedger, none, []⟩

def submissionTree : Invocation CoreState CoreEvent :=
  submitted submission submissionLedger submissionWorld

private theorem submission_data : submission.data.take 8 =
    executeCallbackAuthenticatedProbeV0Discriminator.toList := by decide +kernel

private theorem submission_run : ((entry 50 engine).submit submission).run ⟨submissionLedger, none, []⟩ =
    (.ok (), submissionWorld) := Exec.run_final (by decide +kernel)

theorem submissionTree_lawful : Lawful addressed (Behaves addressed) submissionTree := by
  have hsigners : ∀ m ∈ submission.accounts, m.isSigner = true →
      Crypto.onCurve m.pubkey = true := by decide +kernel
  exact submission_lawful rfl submission_data submission_run hsigners subset_rfl

theorem submissionTree_called : ∃ t ∈ submissionTree.calls, t.frame.programId = RoutedPlan.ID ∧
    ∃ e, RoutedPlan.process t.frame.before t.frame.instruction.presented
      t.frame.instruction.data = .ok e := by
  obtain ⟨hcalls, hcalled⟩ := submitted_called submission_data submission_run
  obtain ⟨c, hc⟩ := List.exists_mem_of_ne_nil _ hcalls
  obtain ⟨hinvoked, hid⟩ := hcalled c hc
  obtain ⟨e, hprocess, -⟩ := engine_evaluates hinvoked
  exact ⟨c.leaf CoreEvent, mem_submitted hc, hid, e, hprocess⟩

/-- How the engine's state came to be. -/
def creation : Instruction where
  programId := RoutedPlan.ID
  accounts := [.new engineState true, .new user true, .newReadonly systemProgram false]
  data := RoutedPlan.initializeDiscriminator.toList ++ market.market.toList ++
    (u64LeBytes 1).toList ++ (u16LeBytes 30).toList ++ [timingPrepareCommit]

def creationLedger : Ledger := Function.update submissionLedger engineState .empty

def created : Outcome where
  helper := none
  stored := [(engineState, (RoutedPlan.newEngineState user
    ⟨market.market, 1, 30, timingPrepareCommit⟩).trySerialize)]
  returned := none

def creationTree : Invocation CoreState CoreEvent :=
  .call ⟨creation, creationLedger, created.store creationLedger RoutedPlan.ID, none, []⟩ []

private theorem creation_entry : RoutedPlan.entry creationLedger creation.presented creation.data =
    .ok created := by
  decide +kernel

private theorem creationTree_lawful : Lawful addressed (Behaves addressed) creationTree := by
  have hsigners : ∀ m ∈ creation.accounts, m.isSigner = true →
      Crypto.onCurve m.pubkey = true := by decide +kernel
  have hnative : ∀ p ∈ created.stored, IsNative (creationLedger p.1).owner := by decide +kernel
  have hengine : creationTree.frame.programId = RoutedPlan.ID := rfl
  apply lawful_of_leaf hsigners
  · apply Outcome.store_ownStep
    intro p hp
    exact .inr (hnative p hp)
  · intro p data hdata
    cases hdata
  · refine ⟨?_, fun _ => ⟨created, creation_entry, rfl, rfl⟩, ?_,
      fun _ _ _ _ haddress => CallbackScope.derivation_addressed haddress⟩
    · intro hcore
      exact absurd (hengine.symm.trans hcore) (by decide)
    · intro hhelper
      exact absurd (hengine.symm.trans hhelper) (by decide)

theorem sample_ran : Ran addressed (Behaves addressed) creationLedger
    [creationTree, submissionTree] submissionWorld.ledger := by
  have hstate : RoutedPlan.state? submissionLedger engineState = some (RoutedPlan.newEngineState user
      ⟨market.market, 1, 30, timingPrepareCommit⟩) := by decide +kernel
  have hcode : (submissionLedger engineState).executable = false := by decide +kernel
  obtain ⟨howner, hdata⟩ := RoutedPlan.state?_eq_some.mp hstate
  have hafter : created.store creationLedger RoutedPlan.ID = submissionLedger := by
    rw [Outcome.store_single rfl, ← hdata, ← howner]
    unfold Ledger.assign creationLedger
    rw [Function.update_self, Function.update_idem]
    apply Function.update_eq_self_iff.mpr
    show (⟨_, false, _⟩ : Account CoreState) = _
    rw [← hcode]
  have hlast : Ran addressed (Behaves addressed) submissionLedger [submissionTree]
      submissionWorld.ledger :=
    Ran.submitted submissionTree_lawful
  rw [← hafter] at hlast
  exact Ran.cons creationTree_lawful hlast

end ProgrammableSolana.Routed.Sample
