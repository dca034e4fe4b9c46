import ProgrammableSolana.Cores.Seeds
import ProgrammableSolana.Engines.CallbackProbe
import ProgrammableSolana.Routed.Entrypoint
import ProgrammableSolana.Routed.Runs

/-! The routed Core in a tree of calls: who holds the signature of a callback address, and which
calls the engine answers. -/
namespace ProgrammableSolana.Routed

open ProgrammableSolana.Lib ProgrammableSolana.Solana ProgrammableSolana.Core
open ProgrammableSolana.Engines
open ProgrammableSolana.Wire.Routed (EngineRequest timingSingle timingPrepareCommit phaseTransition
  phasePrepare phaseCommit)

variable [Crypto]

section Instructions

/-- An instruction of the Core that went through, by the handler that ran. -/
inductive Handled (env : Env config) (infos : List AccountInfo) (w w' : Core.World) : Prop
  | initialized (a : InitializeMarketDomainV0) (args : InitializeMarketDomainV0Args)
      (h : (handleInitializeMarketDomainV0 config a args).run w = (.ok (), w'))
  | deposited (a : DepositV0) (args : DepositV0Args)
      (h : (handleDepositV0 config a args).run w = (.ok (), w'))
  | authorized (a : AuthorizeSpendV0) (args : AuthorizeSpendV0Args)
      (h : (handleAuthorizeSpendV0 env a args).run w = (.ok (), w'))
  | executed (a : ExecuteCallbackAuthenticatedProbeV0)
      (args : ExecuteCallbackAuthenticatedProbeV0Args) (haccounts : executeAccounts infos = some a)
      (h : (handleExecuteCallbackAuthenticatedProbeV0 env a args).run w = (.ok (), w'))

omit [Crypto] in
theorem runHandler_ok {Args Accounts : Type} {args : Option Args} {accounts : Option Accounts}
    {loaders : List Loader} {infos : List AccountInfo} {handler : Accounts → Args → Handler Unit}
    {w w' : Core.World}
    (h : (runHandler args accounts loaders infos handler).run w = (.ok (), w')) :
    ∃ a x, accounts = some a ∧ (handler a x).run w = (.ok (), w') := by
  unfold runHandler at h
  simp only [Exec.bind_ok_iff, Exec.ofExcept_ok_iff, Exec.get_ok_iff, Exec.mapError_run_ok_iff,
    okOr_ok_iff] at h
  obtain ⟨x, _, ⟨-, rfl⟩, _, _, ⟨rfl, rfl⟩, a, _, ⟨ha, rfl⟩, h⟩ := h
  exact ⟨a, x, ha, h⟩

theorem processInstruction_ok {env : Env config} {infos : List AccountInfo} {data : List UInt8}
    {w w' : Core.World} (h : (processInstruction env infos data).run w = (.ok (), w')) :
    Handled env infos w w' := by
  unfold processInstruction at h
  extract_lets rest at h
  split at h
  · obtain ⟨a, args, -, h⟩ := runHandler_ok h
    exact .initialized a args h
  · split at h
    · obtain ⟨a, args, -, h⟩ := runHandler_ok h
      exact .deposited a args h
    · split at h
      · obtain ⟨a, args, -, h⟩ := runHandler_ok h
        exact .authorized a args h
      · split at h
        · obtain ⟨a, args, haccounts, h⟩ := runHandler_ok h
          exact .executed a args haccounts h
        · cases h

theorem processInstruction_execute_ok {env : Env config} {infos : List AccountInfo}
    {data : List UInt8} {w w' : Core.World}
    (hdata : data.take 8 = executeCallbackAuthenticatedProbeV0Discriminator.toList)
    (h : (processInstruction env infos data).run w = (.ok (), w')) :
    ∃ a args, executeAccounts infos = some a ∧
      (handleExecuteCallbackAuthenticatedProbeV0 env a args).run w = (.ok (), w') := by
  unfold processInstruction at h
  extract_lets rest at h
  rw [hdata, if_neg (by decide), if_neg (by decide), if_neg (by decide), if_pos rfl] at h
  exact runHandler_ok h

/-- An instruction of the Core that calls an engine is an execution. -/
theorem Handled.execute {env : Env config} {infos : List AccountInfo} {w w' : Core.World}
    (h : Handled env infos w w') (hlog : engineCalls w.log = []) (hcalls : engineCalls w'.log ≠ []) :
    ∃ a args, executeAccounts infos = some a ∧
      (handleExecuteCallbackAuthenticatedProbeV0 env a args).run w = (.ok (), w') := by
  cases h with
  | initialized a args h =>
    rw [(initialize_logged h).1] at hcalls
    exact absurd hlog hcalls
  | deposited a args h =>
    rw [(deposit_logged h).1] at hcalls
    exact absurd hlog hcalls
  | authorized a args h =>
    obtain ⟨_, _, _, _, _, -, hauthorized, -⟩ := authorize_ok h
    rw [hauthorized, engineCalls_append, hlog] at hcalls
    exact absurd rfl hcalls
  | executed a args haccounts h => exact ⟨a, args, haccounts, h⟩

end Instructions

section Phases

/-- An engine call of an execution, with the request it carries. -/
structure PhaseOf (a : ExecuteCallbackAuthenticatedProbeV0)
    (args : ExecuteCallbackAuthenticatedProbeV0Args) (x : Stages) (request : EngineRequest)
    (c : EngineCall CoreState) : Prop where
  programId : c.instruction.programId = a.engineProgram.key
  metas : ∃ callback pda ds, c.instruction.accounts =
    phaseMetas a callback ds request.binding.phase ∧ callback.key = pda.key ∧
    canonicalCallback a x.intent.intentDigest request.binding.phase = .ok pda
  data : Wire.Routed.encodeEngineInstruction request = .ok c.instruction.data
  requested : ∃ context preSequence capability, RequestOk a x.d args x.intent request.binding.phase
    context preSequence capability request

theorem PhaseAccepted.phaseOf {w w' : Core.World} {a : ExecuteCallbackAuthenticatedProbeV0}
    {args : ExecuteCallbackAuthenticatedProbeV0Args} {x : Stages} {phase : UInt8}
    {mode : CapabilityMode} {context : Hash} {preSequence : UInt64} {callback : AccountInfo}
    {request : EngineRequest} {receipt : Wire.Routed.EngineReceipt} {c : EngineCall CoreState}
    {pda : CallbackPda}
    (h : PhaseAccepted w w' a x.d args x.intent phase mode context preSequence callback request
      receipt c)
    (hpda : canonicalCallback a x.intent.intentDigest phase = .ok pda)
    (hkey : callback.key = pda.key) : PhaseOf a args x request c := by
  obtain ⟨capability, hrequest⟩ := h.requested
  have hphase := hrequest.phase
  subst hphase
  exact ⟨h.called.programId, ⟨callback, pda, _, h.called.metas, hkey, hpda⟩, h.called.data,
    context, preSequence, capability, hrequest⟩

theorem CallbackAuthenticated.phase_of_mem {env : Env config} {w w₁ w₂ w₃ w' : Core.World}
    {a : ExecuteCallbackAuthenticatedProbeV0} {args : ExecuteCallbackAuthenticatedProbeV0Args}
    {x : Stages} (h : CallbackAuthenticated env w w₁ w₂ w₃ w' a args x)
    (hlog : engineCalls w.log = []) {c : EngineCall CoreState} (hc : c ∈ engineCalls w'.log) :
    ∃ request, PhaseOf a args x request c := by
  obtain ⟨e, hevent, -⟩ := h.emitted
  have hprimary := h.primary.phaseOf h.intent.primaryCallback h.intent.primaryKey
  have hfirst : engineCalls w₂.log = [x.call] := by
    rw [h.calls₂, h.primary.called.calls, hlog]
    rfl
  rw [hevent, engineCalls_append, engineCalls_emitted, engineCalls_nil, List.append_nil] at hc
  rcases h.committed with ⟨-, rfl⟩ | ⟨-, request, receipt, c', hcommitted⟩
  · rw [hfirst, List.mem_singleton] at hc
    rw [hc]
    exact ⟨_, hprimary⟩
  · rw [hcommitted.accepted.called.calls, hfirst] at hc
    simp only [List.cons_append, List.nil_append, List.mem_cons, List.not_mem_nil, or_false] at hc
    rcases hc with rfl | rfl
    · exact ⟨_, hprimary⟩
    · exact ⟨request, hcommitted.accepted.phaseOf h.intent.commitCallback h.intent.commitKey⟩

/-- The one signature a phase passes on is that of its callback address. -/
theorem PhaseOf.signed {a : ExecuteCallbackAuthenticatedProbeV0}
    {args : ExecuteCallbackAuthenticatedProbeV0Args} {x : Stages} {request : EngineRequest}
    {f : Frame CoreState CoreEvent} (h : PhaseOf a args x request f.call) {key : Pubkey}
    (hkey : f.Signed key) : ∃ pda, key = pda.key ∧
      canonicalCallback a x.intent.intentDigest request.binding.phase = .ok pda := by
  obtain ⟨callback, pda, ds, hmetas, hcallback, hpda⟩ := h.metas
  obtain ⟨m, hm, rfl, hsigner⟩ := hkey
  have hmem : m ∈ phaseMetas a callback ds request.binding.phase := hmetas ▸ hm
  unfold phaseMetas at hmem
  simp only [List.mem_cons, List.mem_map] at hmem
  rcases hmem with rfl | rfl | ⟨d, -, rfl⟩
  · split at hsigner <;> cases hsigner
  · exact ⟨pda, hcallback, hpda⟩
  · rw [opaqueMeta_isSigner] at hsigner
    cases hsigner

end Phases

section Scopes

/-- What a callback address is for. -/
structure CallbackScope where
  engineProgram : Pubkey
  engineState : Pubkey
  market : Pubkey
  domain : Pubkey
  intentDigest : Hash
  phase : UInt8

namespace CallbackScope

def seeds (scope : CallbackScope) : List (List UInt8) :=
  callbackSeeds scope.engineProgram scope.engineState scope.market scope.domain scope.intentDigest
    scope.phase

def role (scope : CallbackScope) : Cores.PdaRole :=
  .callback scope.engineProgram scope.engineState scope.market scope.domain scope.intentDigest
    scope.phase

/-- The scope of an engine call of an execution. -/
def ofPhase (a : ExecuteCallbackAuthenticatedProbeV0) (x : Stages) (request : EngineRequest) :
    CallbackScope where
  engineProgram := a.engineProgram.key
  engineState := a.engineState.key
  market := a.market.key
  domain := a.domain.key
  intentDigest := x.intent.intentDigest
  phase := request.binding.phase

/-- The scope the reference engine checks a callback for. -/
def ofBinding (engineState : Pubkey) (binding : Wire.Routed.ExecutionBinding) : CallbackScope where
  engineProgram := RoutedPlan.ID
  engineState := engineState
  market := binding.market
  domain := binding.domain
  intentDigest := binding.intentDigest
  phase := binding.phase

def address (scope : CallbackScope) : Option (Pubkey × UInt8) := findProgramAddress scope.seeds ID

def derivation (scope : CallbackScope) (bump : UInt8) : Derivation := ⟨scope.seeds ++ [[bump]], ID⟩

theorem derivation_address {scope : CallbackScope} {key : Pubkey} {bump : UInt8}
    (h : scope.address = some (key, bump)) : (scope.derivation bump).address = some key :=
  createProgramAddress_of_find h

theorem derivation_addressed {scope : CallbackScope} {key : Pubkey} {bump : UInt8}
    (h : scope.address = some (key, bump)) : scope.derivation bump ∈ addressed :=
  Option.ne_none_iff_exists'.mpr ⟨key, derivation_address h⟩

/-- No address is for two scopes. -/
theorem address_injective {derived : Set Derivation} (hpda : PdaCollisionFree derived)
    {scope scope' : CallbackScope} {key : Pubkey} {bump bump' : UInt8}
    (h : scope.address = some (key, bump)) (h' : scope'.address = some (key, bump'))
    (hd : scope.derivation bump ∈ derived) (hd' : scope'.derivation bump' ∈ derived) :
    scope = scope' := by
  have hbytes : scope.role.seedBytes config bump = scope'.role.seedBytes config bump' :=
    (hpda.derivation_eq hd hd' (derivation_address h) (derivation_address h')).1
  have hcfg : config ∈ Cores.cores := by
    unfold Cores.cores
    simp
  have hrole := (Cores.seedBytes_injective hcfg hbytes).1
  cases scope
  cases scope'
  unfold role at hrole
  injection hrole with h₁ h₂ h₃ h₄ h₅ h₆
  subst h₁ h₂ h₃ h₄ h₅ h₆
  rfl

theorem address_of_signed {a : ExecuteCallbackAuthenticatedProbeV0}
    {args : ExecuteCallbackAuthenticatedProbeV0Args} {x : Stages} {request : EngineRequest}
    {f : Frame CoreState CoreEvent} (h : PhaseOf a args x request f.call) {key : Pubkey}
    (hkey : f.Signed key) : ∃ bump, (ofPhase a x request).address = some (key, bump) := by
  obtain ⟨pda, rfl, hpda⟩ := h.signed hkey
  unfold canonicalCallback at hpda
  simp only [except_bind_ok_iff, okOr_ok_iff, except_pure_ok_iff, Prod.exists] at hpda
  obtain ⟨key, bump, hfind, rfl⟩ := hpda
  exact ⟨bump, hfind⟩

/-- The reference engine accepts the callback of its own scope only. -/
theorem address_of_authenticated {engineState callback : Pubkey}
    {binding : Wire.Routed.ExecutionBinding}
    (h : RoutedPlan.authenticateCallbackAuthority engineState callback binding = .ok ()) :
    ∃ bump, (ofBinding engineState binding).address = some (callback, bump) := by
  unfold RoutedPlan.authenticateCallbackAuthority at h
  simp only [except_bind_ok_iff, okOr_ok_iff, require_ok_iff, Prod.exists] at h
  obtain ⟨key, bump, hfind, rfl⟩ := h
  exact ⟨bump, hfind⟩

end CallbackScope

end Scopes

section Trees

/-- An invocation of the Core that went through. -/
def CoreRan (callers : List (Frame CoreState CoreEvent)) (t : Invocation CoreState CoreEvent) :
    Prop :=
  ∃ slot callee w', ((entry slot callee).enter (callers.length + 1) t.frame.instruction).run
      ⟨t.frame.before, none, []⟩ = (.ok (), w') ∧
    w'.ledger = t.frame.after ∧ w'.returnData = t.frame.returned ∧
    engineCalls w'.log = t.calls.map (fun c => c.frame.call) ∧
    emittedEvents w'.log = t.frame.emitted

/-- The execution that an invocation of the Core carried out. -/
def Executes (t : Invocation CoreState CoreEvent) (a : ExecuteCallbackAuthenticatedProbeV0)
    (args : ExecuteCallbackAuthenticatedProbeV0Args) (x : Stages) : Prop :=
  executeAccounts t.frame.instruction.presented = some a ∧
  ∃ env w₁ w₂ w₃ w', CallbackAuthenticated env ⟨t.frame.before, none, []⟩ w₁ w₂ w₃ w' a args x ∧
    w'.ledger = t.frame.after ∧ engineCalls w'.log = t.calls.map (fun c => c.frame.call) ∧
    emittedEvents w'.log = t.frame.emitted

/-- The callback scopes an invocation derives the addresses of: those of the phases the Core calls the
engine for, and the one the engine checks. -/
inductive Derives (t : Invocation CoreState CoreEvent) : CallbackScope → Prop
  | phase (c : Invocation CoreState CoreEvent) (a : ExecuteCallbackAuthenticatedProbeV0)
      (args : ExecuteCallbackAuthenticatedProbeV0Args) (x : Stages) (request : EngineRequest)
      (hc : c ∈ t.calls) (hexecutes : Executes t a args x)
      (hphase : PhaseOf a args x request c.frame.call) : Derives t (.ofPhase a x request)
  | checked (engineState callback : AccountInfo) (opaqueAccounts : List AccountInfo)
      (request : EngineRequest) (state : RoutedPlan.EngineState) (amountOut stateSequence : UInt64)
      (e : RoutedPlan.Evaluation)
      (hpresented : t.frame.instruction.presented = engineState :: callback :: opaqueAccounts)
      (hevaluates : RoutedPlan.Evaluates t.frame.before engineState callback opaqueAccounts request
        state amountOut stateSequence e) :
      Derives t (.ofBinding engineState.key request.binding)

/-- The programs that are known: the Core, its reference engine and the helper of that. Of any
other program nothing is. The derivations of callback addresses are among `derived`. -/
structure Behaves (derived : Set Derivation) (callers : List (Frame CoreState CoreEvent))
    (t : Invocation CoreState CoreEvent) : Prop where
  core : t.frame.programId = ID → CoreRan callers t
  engine : t.frame.programId = RoutedPlan.ID →
    Runs RoutedPlan.ID (fun _ L => RoutedPlan.entry L) callers t
  helper : t.frame.programId = CallbackProbe.ID →
    Runs CallbackProbe.ID (fun _ L => CallbackProbe.entry L) callers t
  derives : ∀ scope key bump, Derives t scope → scope.address = some (key, bump) →
    scope.derivation bump ∈ derived

variable {derived : Set Derivation} {root t c : Invocation CoreState CoreEvent}
  {callers : List (Frame CoreState CoreEvent)}

theorem CoreRan.handled (h : CoreRan callers t) : ∃ env w', Handled env
    t.frame.instruction.presented ⟨t.frame.before, none, []⟩ w' ∧ w'.ledger = t.frame.after ∧
    engineCalls w'.log = t.calls.map (fun c => c.frame.call) ∧
    emittedEvents w'.log = t.frame.emitted := by
  obtain ⟨slot, callee, w', hrun, hledger, -, hcalls, hemitted⟩ := h
  unfold Program.enter at hrun
  simp only [Exec.bind_ok_iff, Exec.modify_ok_iff] at hrun
  obtain ⟨_, _, rfl, hrun⟩ := hrun
  exact ⟨_, w', processInstruction_ok hrun, hledger, hcalls, hemitted⟩

/-- The Core calls only the engine of a market, for a phase of an execution. -/
theorem CoreRan.called (h : CoreRan callers t) (hc : c ∈ t.calls) :
    ∃ a args x request, Executes t a args x ∧ PhaseOf a args x request c.frame.call := by
  obtain ⟨env, w', hhandled, hledger, hcalls, hemitted⟩ := h.handled
  have hmem : c.frame.call ∈ engineCalls w'.log := by
    rw [hcalls]
    exact List.mem_map_of_mem hc
  obtain ⟨a, args, haccounts, h⟩ := hhandled.execute rfl (List.ne_nil_of_mem hmem)
  obtain ⟨w₁, w₂, w₃, x, hx⟩ := execute_ok h
  obtain ⟨request, hphase⟩ := hx.phase_of_mem rfl hmem
  exact ⟨a, args, x, request, ⟨haccounts, env, w₁, w₂, w₃, w', hx, hledger, hcalls, hemitted⟩, hphase⟩

theorem Executes.engine_ne {a : ExecuteCallbackAuthenticatedProbeV0}
    {args : ExecuteCallbackAuthenticatedProbeV0Args} {x : Stages} (h : Executes t a args x) :
    a.engineProgram.key ≠ ID := by
  obtain ⟨-, env, w₁, w₂, w₃, w', hx, -⟩ := h
  exact hx.accounts.bound.engineNotCore

theorem core_neverSelf (h : Lawful derived (Behaves derived) root) :
    root.NeverSelf Frame.programId ID := by
  intro callers t ht hid c hc
  obtain ⟨a, args, x, request, hexecutes, hphase⟩ := ((h.behaves callers t ht).core hid).called hc
  have hprogram : c.frame.programId = a.engineProgram.key := hphase.programId
  rw [hprogram]
  exact hexecutes.engine_ne

private theorem engine_called (h : Behaves derived callers t) (hid : t.frame.programId = RoutedPlan.ID)
    (hc : c ∈ t.calls) : c.frame.programId = CallbackProbe.ID := by
  obtain ⟨o, hentry, hran⟩ := h.engine hid
  have hhelper := hran.called hc
  rcases RoutedPlan.entry_ok hentry with hmanaged | ⟨e, hprocess, rfl⟩
  · rw [hmanaged.helper] at hhelper
    cases hhelper
  · obtain ⟨_, _, _, _, _, _, _, -, -, hevaluates⟩ := RoutedPlan.process_ok hprocess
    exact (hevaluates.helperCall hhelper).1

theorem engine_neverSelf (h : Lawful derived (Behaves derived) root) :
    root.NeverSelf Frame.programId RoutedPlan.ID := by
  intro callers t ht hid c hc
  rw [engine_called (h.behaves callers t ht) hid hc]
  decide

end Trees

end ProgrammableSolana.Routed
