import ProgrammableSolana.Routed.Authenticity
import ProgrammableSolana.Solana.Records
import ProgrammableSolana.Wire.RoutedFormat

/-! The reference engine's state as a record of executions: over any run it follows the events of the
Core, one for one. -/
namespace ProgrammableSolana.Routed

open ProgrammableSolana.Lib ProgrammableSolana.Solana ProgrammableSolana.Core
open ProgrammableSolana.Engines
open ProgrammableSolana.Wire.Routed (EngineRequest timingSingle timingPrepareCommit phaseTransition
  phasePrepare phaseCommit)

open RoutedPlan (EngineState state? state?_congr state?_of_spared state?_of_load)

section Events

variable [Crypto]

/-- An engine call as the event of its execution tells of it. -/
structure Asked (e : CallbackAuthenticatedProbeExecutedV0) (phase : UInt8)
    (context executionDigest : Hash) (c : EngineCall CoreState) : Prop where
  programId : c.instruction.programId = e.engineProgram
  presented : ∃ engineState callback opaqueAccounts,
    c.instruction.presented = engineState :: callback :: opaqueAccounts ∧
    engineState.key = e.engineState
  request : ∃ request : EngineRequest,
    Wire.Routed.encodeEngineInstruction request = .ok c.instruction.data ∧
    request.binding.phase = phase ∧ request.binding.market = e.market ∧
    request.binding.intentDigest = e.intentDigest ∧ request.binding.phaseContextDigest = context ∧
    request.binding.preSequence = e.expectedEngineSequence ∧
    request.executionDigest = executionDigest
  receipt : ∃ receipt data, c.returned = some (e.engineProgram, data) ∧
    Wire.Routed.encodeReceipt receipt = .ok data ∧ receipt.amountOut = e.amountOut

/-- The engine calls of an execution as its event tells of them. -/
def Evidenced (e : CallbackAuthenticatedProbeExecutedV0) (calls : List (EngineCall CoreState)) :
    Prop :=
  (e.timingMode = timingSingle ∧ ∃ c, calls = [c] ∧
    Asked e phaseTransition (Bytes.zero 32) e.primaryExecutionDigest c) ∨
  (e.timingMode = timingPrepareCommit ∧ ∃ c c', calls = [c, c'] ∧
    Asked e phasePrepare (Bytes.zero 32) e.primaryExecutionDigest c ∧
    Asked e phaseCommit e.settlementDigest e.commitExecutionDigest c')

omit [Crypto] in
/-- The event repeats what the execution was asked for and came to. -/
theorem recordExecution_event {a : ExecuteCallbackAuthenticatedProbeV0} {after : EnvelopeData}
    {args : ExecuteCallbackAuthenticatedProbeV0Args} {p : PreparedExecution}
    {receiptDigest settlementDigest : Hash} {receipt : Wire.Routed.EngineReceipt}
    {s : AcceptedSettlement} {outcome : CommitOutcome} {w w' : Core.World} {u : Unit}
    (h : (recordExecution a args p receipt receiptDigest s after settlementDigest outcome).run w =
      (.ok u, w')) :
    ∃ e : CallbackAuthenticatedProbeExecutedV0,
      w'.log = w.log ++ [.emitted (.callbackAuthenticatedProbeExecuted e)] ∧
      (e.market = a.market.key ∧ e.engineProgram = a.engineProgram.key ∧
        e.engineState = a.engineState.key) ∧
      e.timingMode = args.timingMode ∧ e.expectedEngineSequence = args.expectedEngineSequence ∧
      e.amountOut = s.amountOut ∧ e.intentDigest = p.intent.intentDigest ∧
      e.primaryExecutionDigest = p.primaryRequest.executionDigest ∧
      e.settlementDigest = settlementDigest ∧
      e.commitExecutionDigest = outcome.executionDigest := by
  unfold recordExecution writeAccounted emit at h
  simp only [Exec.bind_ok_iff, Exec.ofExcept_ok_iff, Exec.modify_ok_iff] at h
  obtain ⟨_, _, rfl, count, _, ⟨-, rfl⟩, rfl⟩ := h
  exact ⟨_, rfl, ⟨rfl, rfl, rfl⟩, rfl, rfl, rfl, rfl, rfl, rfl, rfl⟩

/-- A phase that was answered is told of by an event that agrees with its request and receipt. -/
theorem PhaseCalled.asked {w w' : Core.World} {a : ExecuteCallbackAuthenticatedProbeV0}
    {d : EnvelopeData} {args : ExecuteCallbackAuthenticatedProbeV0Args} {i : AuthenticatedIntent}
    {phase : UInt8} {context capability : Hash} {preSequence : UInt64}
    {ds : List Wire.CapabilityDescriptor} {request : EngineRequest} {callback : AccountInfo}
    {receipt : Wire.Routed.EngineReceipt} {c : EngineCall CoreState}
    {e : CallbackAuthenticatedProbeExecutedV0}
    (h : PhaseCalled w w' a ds request callback receipt c)
    (hrequest : RequestOk a d args i phase context preSequence capability request)
    (hkeys : e.market = a.market.key ∧ e.engineProgram = a.engineProgram.key ∧
      e.engineState = a.engineState.key)
    (hintent : e.intentDigest = i.intentDigest) (hout : receipt.amountOut = e.amountOut)
    (hsequence : preSequence = e.expectedEngineSequence) :
    Asked e phase context request.executionDigest c := by
  obtain ⟨hmarket, hprogram, hstate⟩ := hkeys
  obtain ⟨engineState, callbackAuthority, opaqueAccounts, hpresented, hkey, -⟩ := h.presented
  obtain ⟨data, hreturned, hencode⟩ := h.returned
  refine ⟨h.programId.trans hprogram.symm, ⟨_, _, _, hpresented, hkey.trans hstate.symm⟩,
    ⟨request, h.data, hrequest.phase, ?_, ?_, hrequest.phaseContextDigest, ?_, rfl⟩,
    ⟨receipt, data, ?_, hencode, hout⟩⟩
  · rw [hrequest.market, hmarket]
  · rw [hrequest.intentDigest, hintent]
  · rw [hrequest.preSequence, hsequence]
  · rw [hreturned, hprogram]

/-- A successful execution emits one event, which tells of its engine calls. -/
theorem execute_evidenced {env : Env config} {a : ExecuteCallbackAuthenticatedProbeV0}
    {args : ExecuteCallbackAuthenticatedProbeV0Args} {w w' : Core.World} {u : Unit}
    (h : (handleExecuteCallbackAuthenticatedProbeV0 env a args).run w = (.ok u, w')) :
    ∃ e calls, emittedEvents w'.log =
        emittedEvents w.log ++ [.callbackAuthenticatedProbeExecuted e] ∧
      engineCalls w'.log = engineCalls w.log ++ calls ∧ Evidenced e calls := by
  unfold handleExecuteCallbackAuthenticatedProbeV0 settleAuthenticatedIntent at h
  simp only [Exec.bind_ok_iff, Exec.get_ok_iff, Exec.ofExcept_ok_iff, Prod.exists,
    Exec.pure_ok_iff] at h
  obtain ⟨_, _, ⟨rfl, rfl⟩, p, _, ⟨hprepare, rfl⟩, receipt, w₁, hinvoke, receiptDigest, settlement,
    _, ⟨haccept, rfl⟩, after, w₂, ⟨_, _, ⟨-, rfl⟩, _, _, hsettle, _, _, ⟨-, rfl⟩, rfl, rfl⟩,
    settlementDigest, _, ⟨-, rfl⟩, outcome, w₃, hcommit, hrecord⟩ := h
  obtain ⟨-, hterms, -, hrequest⟩ := prepareExecution_ok hprepare
  obtain ⟨c, hcalled⟩ := invokeEnginePhase_ok hinvoke
  obtain ⟨-, hsequence, -, -, hsettlement⟩ := acceptPrimary_ok haccept
  obtain ⟨hcalls, hemitted⟩ := settle_quiet hsettle
  obtain ⟨e, hlog, hkeys, htiming, hexpected, hout, hintent, hprimary, hcontext, hcommitted⟩ :=
    recordExecution_event hrecord
  have hreceipt : receipt.amountOut = e.amountOut := by
    rw [hout, hsettlement.amountOut]
  have hasked := hcalled.asked hrequest hkeys hintent hreceipt hexpected.symm
  rw [← hprimary] at hasked
  unfold commitPhase at hcommit
  rcases primaryPhase_ok hterms.phase with ⟨hmode, hphase⟩ | ⟨hmode, hphase⟩
  · rw [if_neg (by rw [hmode]; decide)] at hcommit
    obtain ⟨-, rfl⟩ := Exec.pure_ok_iff.mp hcommit
    rw [hphase] at hasked
    refine ⟨e, [c], ?_, ?_, .inl ⟨htiming.trans hmode, c, rfl, hasked⟩⟩
    · rw [hlog, emittedEvents_append, hemitted, hcalled.emitted]
      rfl
    · rw [hlog, engineCalls_append, hcalls, hcalled.calls]
      simp
  · rw [if_pos hmode] at hcommit
    unfold commit at hcommit
    simp only [Exec.bind_ok_iff, Exec.get_ok_iff, Exec.ofExcept_ok_iff, require_ok_iff, Prod.exists,
      Exec.pure_ok_iff] at hcommit
    obtain ⟨_, _, ⟨rfl, rfl⟩, hash, request, _, ⟨hrequest', rfl⟩, receipt', w₂', hinvoke', _, _,
      ⟨-, rfl⟩, _, _, ⟨hsame, rfl⟩, _, _, ⟨-, rfl⟩, _, _, ⟨-, rfl⟩, _, _, ⟨-, rfl⟩, rfl, rfl⟩ := hcommit
    obtain ⟨c', hcalled'⟩ := invokeEnginePhase_ok hinvoke'
    have hpre : receipt.stateSequence = e.expectedEngineSequence := by
      unfold SequenceOk at hsequence
      rw [if_pos hphase, UInt64.toNat_inj] at hsequence
      rw [hsequence, hexpected]
    have hasked' := hcalled'.asked (phaseRequest_ok hrequest').1 hkeys hintent
      (hsame.trans hreceipt) hpre
    rw [hphase] at hasked
    have hdigest : request.executionDigest = e.commitExecutionDigest := hcommitted.symm
    rw [← hcontext, hdigest] at hasked'
    refine ⟨e, [c, c'], ?_, ?_, .inr ⟨htiming.trans hmode, c, c', rfl, hasked, hasked'⟩⟩
    · rw [hlog, emittedEvents_append, hcalled'.emitted, hemitted, hcalled.emitted]
      rfl
    · rw [hlog, engineCalls_append, hcalled'.calls, hcalls, hcalled.calls]
      simp

end Events

section Records

/-- The execution an event tells of, where it is one of an engine's state. -/
def executionOf (k : Pubkey) : CoreEvent → Option CallbackAuthenticatedProbeExecutedV0
  | .callbackAuthenticatedProbeExecuted e =>
    if e.engineProgram = RoutedPlan.ID ∧ e.engineState = k then some e else none
  | _ => none

/-- The state after an execution. -/
def record (s : EngineState) (e : CallbackAuthenticatedProbeExecutedV0) : EngineState :=
  { s with
    sequence := s.sequence + 1
    lastIntentDigest := e.intentDigest
    lastPhaseContextDigest :=
      if e.timingMode = timingSingle then Bytes.zero 32 else e.settlementDigest
    lastExecutionDigest :=
      if e.timingMode = timingSingle then e.primaryExecutionDigest else e.commitExecutionDigest
    lastAmountOut := e.amountOut
    lastPhase := if e.timingMode = timingSingle then phaseTransition else phaseCommit }

/-- A state of the engine from its creation on: its authority sets its mode, and it takes up the
executions of its market, each at its sequence. -/
inductive Advances : Option EngineState → Option CallbackAuthenticatedProbeExecutedV0 →
    Option EngineState → Prop
  | created (authority : Pubkey) (args : RoutedPlan.InitializeArgs) (hargs : args.Valid) :
      Advances none none (some (RoutedPlan.newEngineState authority args))
  | modeSet (s : EngineState) (mode : UInt8) (hmode : RoutedPlan.isSupportedMode mode) :
      Advances (some s) none (some { s with mode })
  | executed (s : EngineState) (e : CallbackAuthenticatedProbeExecutedV0)
      (hmarket : e.market = s.market) (htiming : e.timingMode = s.timingMode)
      (hcontext : e.timingMode ≠ timingSingle → e.settlementDigest ≠ Bytes.zero 32)
      (hsequence : e.expectedEngineSequence = s.sequence)
      (hnext : s.sequence.toNat + 1 < 2 ^ 64) : Advances (some s) (some e) (some (record s e))

/-- The state at an address took up the executions among some events. -/
abbrev Records (k : Pubkey) : Ledger → List CoreEvent → Ledger → Prop :=
  Keeps (fun L => state? L k) (executionOf k) Advances

/-- What a state tells of the last execution. -/
structure Last (e : CallbackAuthenticatedProbeExecutedV0) (s : EngineState) : Prop where
  intent : s.lastIntentDigest = e.intentDigest
  execution : s.lastExecutionDigest =
    if s.timingMode = timingSingle then e.primaryExecutionDigest else e.commitExecutionDigest
  amountOut : s.lastAmountOut = e.amountOut
  phase : s.lastPhase = if s.timingMode = timingSingle then phaseTransition else phaseCommit
  context : s.lastPhaseContextDigest =
    if s.timingMode = timingSingle then Bytes.zero 32 else e.settlementDigest
  contextPhase : s.lastPhaseContextDigest ≠ Bytes.zero 32 ↔ s.lastPhase = phaseCommit

/-- What a state created with these arguments tells of all its executions. -/
structure Tells (authority : Pubkey) (args : RoutedPlan.InitializeArgs)
    (es : List CallbackAuthenticatedProbeExecutedV0) (s : EngineState) : Prop where
  fixed : s.authority = authority ∧ s.market = args.market ∧ s.revision = args.revision ∧
    s.lpFeeBps = args.lpFeeBps ∧ s.timingMode = args.timingMode
  count : s.sequence.toNat = es.length
  numbered : ∀ (i : ℕ) (e : CallbackAuthenticatedProbeExecutedV0), es[i]? = some e →
    e.expectedEngineSequence.toNat = i ∧ e.market = args.market ∧ e.timingMode = args.timingMode
  untouched : es = [] → s = { RoutedPlan.newEngineState authority args with mode := s.mode }
  last : ∀ e, es.getLast? = some e → Last e s

/-- What is told of executions at an address: nothing where there is no state. -/
inductive Told (es : List CallbackAuthenticatedProbeExecutedV0) : Option EngineState → Prop
  | absent (hnone : es = []) : Told es none
  | present {s : EngineState} (authority : Pubkey) (args : RoutedPlan.InitializeArgs)
      (hargs : args.Valid) (htells : Tells authority args es s) : Told es (some s)

private theorem tells_new (authority : Pubkey) (args : RoutedPlan.InitializeArgs) :
    Tells authority args [] (RoutedPlan.newEngineState authority args) := by
  constructor
  · exact ⟨rfl, rfl, rfl, rfl, rfl⟩
  · rfl
  · simp
  · intro _
    rfl
  · simp

theorem Tells.modeSet {authority : Pubkey} {args : RoutedPlan.InitializeArgs}
    {es : List CallbackAuthenticatedProbeExecutedV0} {s : EngineState} (h : Tells authority args es s)
    (mode : UInt8) : Tells authority args es { s with mode } := by
  constructor
  · exact h.fixed
  · exact h.count
  · exact h.numbered
  · intro hes
    rw [h.untouched hes]
  · intro e he
    obtain ⟨hintent, hexecution, hout, hphase, hcontext, hiff⟩ := h.last e he
    exact ⟨hintent, hexecution, hout, hphase, hcontext, hiff⟩

theorem Tells.executed {authority : Pubkey} {args : RoutedPlan.InitializeArgs}
    {es : List CallbackAuthenticatedProbeExecutedV0} {s : EngineState}
    {e : CallbackAuthenticatedProbeExecutedV0} (h : Tells authority args es s)
    (hmarket : e.market = s.market) (htiming : e.timingMode = s.timingMode)
    (hcontext : e.timingMode ≠ timingSingle → e.settlementDigest ≠ Bytes.zero 32)
    (hsequence : e.expectedEngineSequence = s.sequence) (hnext : s.sequence.toNat + 1 < 2 ^ 64) :
    Tells authority args (es ++ [e]) (record s e) := by
  obtain ⟨hauthority, hmarket', hrevision, hfee, htiming'⟩ := h.fixed
  constructor
  · exact ⟨hauthority, hmarket', hrevision, hfee, htiming'⟩
  · have hadd : (s.sequence + 1).toNat = s.sequence.toNat + 1 := by
      rw [UInt64.toNat_add]
      exact Nat.mod_eq_of_lt hnext
    rw [List.length_append, List.length_singleton, ← h.count]
    exact hadd
  · intro i e' he'
    rcases Nat.lt_or_ge i es.length with hlt | hge
    · rw [List.getElem?_append_left hlt] at he'
      exact h.numbered i e' he'
    · rw [List.getElem?_append_right hge, List.getElem?_singleton] at he'
      split at he'
      · next hzero =>
        obtain rfl := Option.some.inj he'
        refine ⟨?_, hmarket.trans hmarket', htiming.trans htiming'⟩
        rw [hsequence, h.count]
        omega
      · cases he'
  · intro hnil
    exact absurd hnil (by simp)
  · intro e' he'
    rw [List.getLast?_concat, Option.some.injEq] at he'
    subst he'
    have hphases : phaseTransition ≠ phaseCommit := by decide
    constructor
    · rfl
    · unfold record
      simp only [htiming]
    · rfl
    · unfold record
      simp only [htiming]
    · unfold record
      simp only [htiming]
    · unfold record
      simp only
      by_cases hsingle : e.timingMode = timingSingle
      · rw [if_pos hsingle, if_pos hsingle]
        simp [hphases]
      · rw [if_neg hsingle, if_neg hsingle]
        simp [hcontext hsingle]

theorem Advances.told {es : List CallbackAuthenticatedProbeExecutedV0} {x y : Option EngineState}
    {e : Option CallbackAuthenticatedProbeExecutedV0} (h : Told es x) (hstep : Advances x e y) :
    Told (es ++ e.toList) y := by
  cases hstep with
  | created authority args hargs =>
    cases h with
    | absent hnone =>
      subst hnone
      exact .present authority args hargs (tells_new authority args)
  | modeSet s mode hmode =>
    cases h with
    | present authority args hargs htells =>
      apply Told.present authority args hargs
      rw [Option.toList_none, List.append_nil]
      exact htells.modeSet mode
  | executed s e hmarket htiming hcontext hsequence hnext =>
    cases h with
    | present authority args hargs htells =>
      apply Told.present authority args hargs
      exact htells.executed hmarket htiming hcontext hsequence hnext

/-- What a state was created with, whatever it took up since. -/
structure SameArgs (s s' : EngineState) : Prop where
  authority : s'.authority = s.authority
  market : s'.market = s.market
  revision : s'.revision = s.revision
  lpFeeBps : s'.lpFeeBps = s.lpFeeBps
  timingMode : s'.timingMode = s.timingMode

theorem SameArgs.trans {s s' s'' : EngineState} (h : SameArgs s s') (h' : SameArgs s' s'') :
    SameArgs s s'' := by
  constructor
  · exact h'.authority.trans h.authority
  · exact h'.market.trans h.market
  · exact h'.revision.trans h.revision
  · exact h'.lpFeeBps.trans h.lpFeeBps
  · exact h'.timingMode.trans h.timingMode

/-- Once created a state stays, with what it was created with. -/
theorem Advances.sameArgs {s : EngineState} {e : Option CallbackAuthenticatedProbeExecutedV0}
    {y : Option EngineState} (h : Advances (some s) e y) : ∃ s', y = some s' ∧ SameArgs s s' := by
  cases h with
  | modeSet _ mode hmode => exact ⟨_, rfl, ⟨rfl, rfl, rfl, rfl, rfl⟩⟩
  | executed _ e _ _ _ _ _ => exact ⟨_, rfl, ⟨rfl, rfl, rfl, rfl, rfl⟩⟩

private theorem managing_records {k : Pubkey} {L L' : Ledger}
    (h : RoutedPlan.Managing (state? L k) (state? L' k)) : Records k L [] L' := by
  show Journal Advances (state? L k) [] (state? L' k)
  generalize state? L k = x at h ⊢
  generalize state? L' k = y at h ⊢
  cases h with
  | same => exact .refl _
  | created authority args hargs => exact Journal.silent (.created authority args hargs)
  | modeSet s mode hmode => exact Journal.silent (.modeSet s mode hmode)

end Records

section Trees

variable [Crypto] {derived : Set Derivation} {root t c : Invocation CoreState CoreEvent}
  {callers : List (Frame CoreState CoreEvent)} {e : CallbackAuthenticatedProbeExecutedV0}
  {phase : UInt8} {context executionDigest : Hash} {k : Pubkey}

theorem CoreRan.evidenced (h : CoreRan callers t) :
    (t.calls = [] ∧ ∀ k, t.frame.emitted.filterMap (executionOf k) = []) ∨
    ∃ e, t.frame.emitted = [.callbackAuthenticatedProbeExecuted e] ∧
      Evidenced e (t.calls.map fun c => c.frame.call) := by
  obtain ⟨env, w', hhandled, -, hcalls, hemitted⟩ := h.handled
  rw [← hemitted, ← hcalls]
  have hquiet : engineCalls w'.log = [] → t.calls = [] := by
    intro hnil
    rw [hnil] at hcalls
    exact List.map_eq_nil_iff.mp hcalls.symm
  cases hhandled with
  | initialized a args h =>
    obtain ⟨hnil, e, he, -⟩ := initialize_logged h
    refine .inl ⟨hquiet hnil, ?_⟩
    intro k
    rw [he]
    rfl
  | deposited a args h =>
    obtain ⟨hnil, e, he, -⟩ := deposit_logged h
    refine .inl ⟨hquiet hnil, ?_⟩
    intro k
    rw [he]
    rfl
  | authorized a args h =>
    obtain ⟨_, _, _, _, e, -, hlog, -⟩ := authorize_ok h
    refine .inl ⟨hquiet (by rw [hlog]; rfl), ?_⟩
    intro k
    rw [hlog]
    rfl
  | executed a args _ h =>
    obtain ⟨e, calls, he, hcalled, hevidenced⟩ := execute_evidenced h
    refine .inr ⟨e, he, ?_⟩
    rw [hcalled]
    exact hevidenced

theorem Asked.evaluated (h : Asked e phase context executionDigest c.frame.call)
    (hruns : Runs RoutedPlan.ID (fun _ L => RoutedPlan.entry L) callers c) :
    ∃ ev engineState callback opaqueAccounts request state amountOut stateSequence,
      RoutedPlan.Evaluates c.frame.before engineState callback opaqueAccounts request state
        amountOut stateSequence ev ∧
      ev.outcome.Ran RoutedPlan.ID c ∧ engineState.key = e.engineState ∧
      request.binding.phase = phase ∧ request.binding.market = e.market ∧
      request.binding.intentDigest = e.intentDigest ∧
      request.binding.phaseContextDigest = context ∧
      request.binding.preSequence = e.expectedEngineSequence ∧
      request.executionDigest = executionDigest := by
  obtain ⟨request, hdata, hfields⟩ := h.request
  obtain ⟨engineState, callback, opaqueAccounts, hpresented, hkey⟩ := h.presented
  obtain ⟨o, hentry, hran⟩ := hruns
  obtain ⟨ev, engineState', callback', opaqueAccounts', state, amountOut, stateSequence, hpresented',
    hevaluates, rfl⟩ := RoutedPlan.entry_encoded_ok hdata hentry
  have hinfos : engineState' :: callback' :: opaqueAccounts' =
      engineState :: callback :: opaqueAccounts := hpresented'.symm.trans hpresented
  obtain ⟨rfl, htail⟩ := List.cons_eq_cons.mp hinfos
  exact ⟨ev, engineState', callback', opaqueAccounts', request, state, amountOut, stateSequence,
    hevaluates, hran, hkey, hfields⟩

omit [Crypto] in
private theorem engine_not_native : ¬ IsNative RoutedPlan.ID := by
  decide

/-- An evaluation writes its accounts over what spared the engine's. -/
theorem evaluation_after (h : Lawful derived (Behaves derived) root) (hc : root.Under callers c)
    (hid : c.frame.programId = RoutedPlan.ID) {o : Outcome} (hran : o.Ran RoutedPlan.ID c) :
    ∃ L, c.frame.after = o.store L RoutedPlan.ID ∧ Spared RoutedPlan.ID c.frame.before L := by
  rcases hran.effect.1 with hafter | ⟨d, hd, hbefore, hafter⟩
  · exact ⟨_, hafter, .refl _⟩
  · refine ⟨_, hafter, ?_⟩
    have hspared := h.spared (engine_neverSelf h) engine_not_native (.call hc hd)
      (List.mem_map.mpr ⟨c.frame, List.mem_cons_self, hid⟩)
    rwa [hbefore] at hspared

/-- An evaluation of another state, or one that only prepares, leaves a state as it is. -/
theorem evaluation_spares (h : Lawful derived (Behaves derived) root) (hc : root.Under callers c)
    (hid : c.frame.programId = RoutedPlan.ID)
    (hasked : Asked e phase context executionDigest c.frame.call)
    (hspares : e.engineState ≠ k ∨ phase = phasePrepare) :
    state? c.frame.after k = state? c.frame.before k := by
  obtain ⟨ev, engineState, _, _, request, _, _, _, hevaluates, hran, hkey, hphase, -⟩ :=
    hasked.evaluated ((h.behaves callers c hc).engine hid)
  obtain ⟨L, hafter, hspared⟩ := evaluation_after h hc hid hran
  have hnot : k ∉ ev.outcome.stored.map Prod.fst := by
    have houtcome := hevaluates.outcome
    unfold RoutedPlan.Evaluation.outcome
    split at houtcome
    · rw [houtcome.2]
      simp
    · next hnprepare =>
      obtain ⟨next, -, hstored, -⟩ := houtcome
      rw [hphase] at hnprepare
      have hne : k ≠ e.engineState := (hspares.resolve_right hnprepare).symm
      rw [hstored]
      simpa [hkey] using hne
  rw [hafter, state?_congr (Outcome.store_of_not_mem hnot)]
  exact state?_of_spared hspared

/-- What the return data of an accepted evaluation names as output is what the engine recorded. -/
theorem evaluation_amountOut (h : Lawful derived (Behaves derived) root) (hc : root.Under callers c)
    (hid : c.frame.programId = RoutedPlan.ID)
    (hasked : Asked e phase context executionDigest c.frame.call)
    (hprogram : e.engineProgram = RoutedPlan.ID) {mode : UInt8} {ev : RoutedPlan.Evaluation}
    {receipt : Wire.Routed.EngineReceipt} (hran : ev.outcome.Ran RoutedPlan.ID c)
    (hemit : RoutedPlan.emitReceipt mode receipt = .ok ev.returned) :
    receipt.amountOut = e.amountOut := by
  obtain ⟨receipt', data, hreturned, hencode, hamount⟩ := hasked.receipt
  have hreturned' : c.frame.returned = some (e.engineProgram, data) := hreturned
  rcases hran.effect.2 _ hreturned' with ⟨data', hdata, hpair⟩ | ⟨d, hd, hbelow⟩
  · have hown : ev.returned = some data := by
      have hev : ev.returned = some data' := hdata
      rw [hev, (Prod.mk.inj hpair).2]
    rw [hown] at hemit
    rw [← hamount]
    exact (RoutedPlan.emitReceipt_read hemit hencode).symm
  · exact absurd hprogram (h.returned_ne (engine_neverSelf h) engine_not_native (.call hc hd)
      (List.mem_map.mpr ⟨c.frame, List.mem_cons_self, hid⟩) hbelow)

/-- An evaluation that the Core accepted is taken up by the state it is of. -/
theorem evaluation_takes (h : Lawful derived (Behaves derived) root) (hc : root.Under callers c)
    (hid : c.frame.programId = RoutedPlan.ID)
    (hasked : Asked e phase context executionDigest c.frame.call)
    (hprogram : e.engineProgram = RoutedPlan.ID) (hphase : phase ≠ phasePrepare) :
    ∃ s, state? c.frame.before e.engineState = some s ∧ e.market = s.market ∧
    Wire.Routed.validatePhaseForTiming s.timingMode phase = .ok () ∧
    (context ≠ Bytes.zero 32 ↔ phase = phaseCommit) ∧ e.expectedEngineSequence = s.sequence ∧
    s.sequence.toNat + 1 < 2 ^ 64 ∧ state? c.frame.after e.engineState = some { s with
      sequence := s.sequence + 1
      lastIntentDigest := e.intentDigest
      lastPhaseContextDigest := context
      lastExecutionDigest := executionDigest
      lastAmountOut := e.amountOut
      lastPhase := phase } := by
  obtain ⟨ev, engineState, callback, opaqueAccounts, request, state, amountOut, stateSequence,
    hevaluates, hran, hkey, rfl, hmarket, hintent, hcontext, hsequence, hdigest⟩ :=
    hasked.evaluated ((h.behaves callers c hc).engine hid)
  have hauth := hevaluates.authenticated
  have hload : RoutedPlan.loadEngineState c.frame.before engineState.key = .ok state := hauth.loaded
  have hout : amountOut = e.amountOut :=
    evaluation_amountOut h hc hid hasked hprogram hran hevaluates.returned
  have hvalid : request.binding.phaseContextDigest ≠ Bytes.zero 32 ↔
      request.binding.phase = phaseCommit := by
    obtain ⟨_, hencode, -⟩ := except_bind_ok_iff.mp hauth.digest
    have hbinding := (Wire.Routed.encodeExecutionBinding_ok_iff.mp hencode).1
    exact (Wire.Routed.validateExecutionBinding_ok_iff.mp hbinding).2.1
  have houtcome := hevaluates.outcome
  rw [if_neg hphase] at houtcome
  obtain ⟨next, hnext, hstored, -⟩ := houtcome
  unfold RoutedPlan.advance at hnext
  simp only [except_bind_ok_iff, okOr_ok_iff, checkedAdd_eq_some, except_pure_ok_iff] at hnext
  obtain ⟨sequence, hadd, hnext⟩ := hnext
  have hlt : state.sequence.toNat + 1 < 2 ^ 64 := by
    have hbound := sequence.toNat_lt
    rw [hadd] at hbound
    exact hbound
  have hadd' : sequence = state.sequence + 1 := by
    apply UInt64.toNat_inj.mp
    rw [hadd, UInt64.toNat_add]
    exact (Nat.mod_eq_of_lt hlt).symm
  obtain ⟨L, hafter, -⟩ := evaluation_after h hc hid hran
  rw [hcontext] at hvalid hnext
  refine ⟨state, ?_, ?_, hauth.timing, hvalid, ?_, hlt, ?_⟩
  · rw [← hkey]
    exact state?_of_load hload
  · rw [← hmarket, ← hauth.market]
  · rw [← hsequence, ← hauth.sequence]
  · have hstore : ev.outcome.stored = [(engineState.key, next.trySerialize)] := by
      unfold RoutedPlan.Evaluation.outcome
      rw [hstored]
      rfl
    rw [hafter, Outcome.store_single hstore, hkey, RoutedPlan.state?_assign, ← hnext, hadd', hintent,
      hdigest, hout]

/-- A run of the engine that evaluates a phase. -/
def Evaluating (_ : List (Frame CoreState CoreEvent)) (t : Invocation CoreState CoreEvent) : Prop :=
  t.frame.programId = RoutedPlan.ID ∧ ∃ e, RoutedPlan.process t.frame.before
    t.frame.instruction.presented t.frame.instruction.data = .ok e

/-- What the calls of an execution keep, but for the evaluations. -/
def CallsKeep (k : Pubkey) (callers : List (Frame CoreState CoreEvent))
    (t : Invocation CoreState CoreEvent) : Prop :=
  ∀ c ∈ t.calls, ¬ Evaluating (t.frame :: callers) c → Records k c.frame.before [] c.frame.after

/-- A phase that only prepares leaves no trace in a state. -/
theorem prepare_records (h : Lawful derived (Behaves derived) root) (ht : root.Under callers t)
    (hcalls : CallsKeep k callers t) (hc : c ∈ t.calls)
    (hasked : Asked e phasePrepare context executionDigest c.frame.call) :
    Records k c.frame.before [] c.frame.after := by
  by_cases hid : c.frame.programId = RoutedPlan.ID
  · exact .of_eq (evaluation_spares h (.call ht hc) hid hasked (.inr rfl))
  · exact hcalls c hc fun hev => hid hev.1

/-- A phase that completes an execution is taken up by the state of the execution, and by no other. -/
theorem complete_records (h : Lawful derived (Behaves derived) root) (ht : root.Under callers t)
    (hcalls : CallsKeep k callers t) (hc : c ∈ t.calls)
    (hasked : Asked e phase context executionDigest c.frame.call) (hphase : phase ≠ phasePrepare)
    (htiming : ∀ timing, Wire.Routed.validatePhaseForTiming timing phase = .ok () →
      e.timingMode = timing)
    (hsingle : e.timingMode ≠ timingSingle → phase = phaseCommit ∧ context = e.settlementDigest)
    (hrecord : ∀ s : EngineState, record s e = { s with
      sequence := s.sequence + 1
      lastIntentDigest := e.intentDigest
      lastPhaseContextDigest := context
      lastExecutionDigest := executionDigest
      lastAmountOut := e.amountOut
      lastPhase := phase }) :
    Records k c.frame.before [.callbackAuthenticatedProbeExecuted e] c.frame.after := by
  have hprogram : c.frame.programId = e.engineProgram := hasked.programId
  by_cases hof : e.engineProgram = RoutedPlan.ID ∧ e.engineState = k
  · obtain ⟨s, hbefore, hmarket, hfits, hcontext, hsequence, hnext, hafter⟩ := evaluation_takes h
      (.call ht hc) (hprogram.trans hof.1) hasked hof.1 hphase
    rw [hof.2] at hbefore hafter
    rw [← hrecord] at hafter
    have hdigest : e.timingMode ≠ timingSingle → e.settlementDigest ≠ Bytes.zero 32 := by
      intro hne
      obtain ⟨hcommit, hsame⟩ := hsingle hne
      rw [← hsame]
      exact hcontext.mpr hcommit
    have htaken : [CoreEvent.callbackAuthenticatedProbeExecuted e].filterMap (executionOf k) =
        (some e).toList := by
      unfold executionOf
      simp [hof]
    show Journal Advances (state? c.frame.before k) _ (state? c.frame.after k)
    rw [htaken, hbefore, hafter]
    exact Journal.single (.executed s e hmarket (htiming _ hfits) hdigest hsequence hnext)
  · have hnone : ([] : List CoreEvent).filterMap (executionOf k) =
        [CoreEvent.callbackAuthenticatedProbeExecuted e].filterMap (executionOf k) := by
      unfold executionOf
      simp [hof]
    apply Keeps.congr _ hnone
    by_cases hid : c.frame.programId = RoutedPlan.ID
    · have hspares : e.engineState ≠ k ∨ phase = phasePrepare :=
        .inl fun hstate => hof ⟨hprogram.symm.trans hid, hstate⟩
      exact .of_eq (evaluation_spares h (.call ht hc) hid hasked hspares)
    · exact hcalls c hc fun hev => hid hev.1

omit [Crypto] in
private theorem timing_of_phase {timing : UInt8}
    (h : Wire.Routed.validatePhaseForTiming timing phase = .ok ()) :
    (phase = phaseTransition → timingSingle = timing) ∧
      (phase = phaseCommit → timingPrepareCommit = timing) := by
  unfold Wire.Routed.validatePhaseForTiming at h
  simp only [except_bind_ok_iff, require_ok_iff] at h
  obtain ⟨_, -, _, -, ⟨rfl, rfl⟩ | ⟨rfl, rfl | rfl⟩⟩ := h
  · exact ⟨fun _ => rfl, fun hphase => absurd hphase (by decide)⟩
  · exact ⟨fun hphase => absurd hphase (by decide), fun _ => rfl⟩
  · exact ⟨fun hphase => absurd hphase (by decide), fun _ => rfl⟩

/-- An execution is taken up by the state it is of, whatever the engine and the programs below do. -/
theorem core_records (h : Lawful derived (Behaves derived) root) (ht : root.Under callers t)
    (hid : t.frame.programId = ID) (hcalls : CallsKeep k callers t) :
    Records k t.frame.before t.frame.emitted t.frame.after := by
  have hown : ∀ {L L'}, OwnStep t.frame.programId L L' → Records k L [] L' := by
    intro L L' hstep
    apply Keeps.of_ownStep (fun L L' => state?_of_spared) engine_not_native _ hstep
    rw [hid]
    decide
  have hledgers := (h.sandboxed callers t ht).ledgers
  rcases ((h.behaves callers t ht).core hid).evidenced with ⟨hnil, hnone⟩ |
    ⟨e, hemitted, ⟨htiming, ec, hmap, hasked⟩ | ⟨htiming, ec, ec', hmap, hasked, hasked'⟩⟩
  · rw [hnil] at hledgers
    exact (hown (CallTree.Interleaved.nil_iff.mp hledgers)).congr (hnone k).symm
  · obtain ⟨c, hlist, rfl⟩ := List.map_eq_singleton_iff.mp hmap
    have hc : c ∈ t.calls := by
      rw [hlist]
      exact List.mem_singleton_self c
    rw [hlist] at hledgers
    simp only [List.map_cons, List.map_nil, CallTree.Interleaved.cons_iff,
      CallTree.Interleaved.nil_iff] at hledgers
    rw [hemitted]
    have htake := complete_records h ht hcalls hc hasked (by decide)
      (fun timing hfits => htiming.trans ((timing_of_phase hfits).1 rfl))
      (fun hne => absurd htiming hne) (by simp [record, htiming])
    exact ((hown hledgers.1).trans htake).trans (hown hledgers.2)
  · have hsingle : timingPrepareCommit ≠ timingSingle := by decide
    obtain ⟨c, cs, hlist, rfl, hrest⟩ := List.map_eq_cons_iff.mp hmap
    obtain ⟨c', rfl, rfl⟩ := List.map_eq_singleton_iff.mp hrest
    have hc : c ∈ t.calls := by
      rw [hlist]
      exact List.mem_cons_self
    have hc' : c' ∈ t.calls := by
      rw [hlist]
      exact List.mem_cons_of_mem _ (List.mem_singleton_self c')
    rw [hlist] at hledgers
    simp only [List.map_cons, List.map_nil, CallTree.Interleaved.cons_iff,
      CallTree.Interleaved.nil_iff] at hledgers
    obtain ⟨hfirst, hbetween, hlast⟩ := hledgers
    rw [hemitted]
    have hprepare := prepare_records h ht hcalls hc hasked
    have htake := complete_records h ht hcalls hc' hasked' (by decide)
      (fun timing hfits => htiming.trans ((timing_of_phase hfits).2 rfl))
      (fun _ => ⟨rfl, rfl⟩) (by simp [record, htiming, hsingle])
    exact ((((hown hfirst).trans hprepare).trans (hown hbetween)).trans htake).trans (hown hlast)

/-- A state of the reference engine is a record of what the Core reports. -/
theorem recorder (hpda : PdaCollisionFree derived) (k : Pubkey) :
    Recorder derived (Behaves derived) ID RoutedPlan.ID
    (fun L => state? L k) (executionOf k) Advances Evaluating := by
  constructor
  · exact engine_not_native
  · intro L L' hspared
    exact state?_of_spared hspared
  · intro root h callers t ht hev
    obtain ⟨hid, e, hprocess⟩ := hev
    obtain ⟨outer, s, _, _, _, _, hcallers, hasked, -⟩ := evaluation_asked h hpda ht hid hprocess
    exact ⟨s.frame, outer, hcallers, hasked.core⟩
  · intro root h callers t ht hid hnot
    obtain ⟨o, hentry, hran⟩ := (h.behaves callers t ht).engine hid
    rcases RoutedPlan.entry_ok hentry with hmanaged | ⟨e, hprocess, -⟩
    · obtain ⟨hnil, hafter, -⟩ := hran.of_none hmanaged.helper
      refine ⟨hnil, ?_⟩
      rw [hafter]
      exact managing_records (hmanaged.managing k)
    · exact absurd ⟨hid, e, hprocess⟩ hnot
  · intro root h callers t ht hid hcalls
    exact core_records h ht hid hcalls
  · intro root h
    exact core_neverSelf h

private theorem run_sameArgs {L L' : Ledger} {ts : List (Invocation CoreState CoreEvent)}
    (h : Ran derived (Behaves derived) L ts L') (hpda : PdaCollisionFree derived) {s : EngineState}
    (hs : state? L k = some s) : ∃ s', state? L' k = some s' ∧ SameArgs s s' := by
  have hrecords := (recorder hpda k).run h
  apply Journal.invariant (P := fun _ y => ∃ s', y = some s' ∧ SameArgs s s') hrecords
  · exact ⟨s, hs, ⟨rfl, rfl, rfl, rfl, rfl⟩⟩
  · intro es x e y hsame hstep
    obtain ⟨s', rfl, hargs⟩ := hsame
    obtain ⟨s'', hy, hargs'⟩ := hstep.sameArgs
    exact ⟨s'', hy, hargs.trans hargs'⟩

/-- Over any run, whatever other programs did in it, a state of the reference engine came to be by its
creation and by taking up, in order, all the executions of its market on it and no others. So it tells
of these executions, and what it was created with stays as it is however the run goes on. -/
theorem evidence_recorded {L L' : Ledger} {ts : List (Invocation CoreState CoreEvent)}
    (h : Ran derived (Behaves derived) L ts L') (hpda : PdaCollisionFree derived) {k : Pubkey}
    (hstart : state? L k = none) :
    Journal Advances none
      ((CallTree.collectAll (emittedBy ID) ts).filterMap (executionOf k)) (state? L' k) ∧
    Told ((CallTree.collectAll (emittedBy ID) ts).filterMap (executionOf k)) (state? L' k) ∧
    ∀ ts' L'', Ran derived (Behaves derived) L' ts' L'' → ∀ s, state? L' k = some s →
      ∃ s', state? L'' k = some s' ∧ SameArgs s s' := by
  have hrecords : Journal Advances (state? L k) _ (state? L' k) := (recorder hpda k).run h
  rw [hstart] at hrecords
  have htold : Told [] none := .absent rfl
  refine ⟨hrecords, ?_, ?_⟩
  · apply Journal.invariant hrecords htold
    intro es x e y hold hstep
    exact hstep.told hold
  · intro ts' L'' hrest s hs
    exact run_sameArgs hrest hpda hs

end Trees

section Sample

attribute [local instance] Sample.collisionFree

theorem evidence_recorded_sample : ∃ s authority args e,
    state? Sample.submissionWorld.ledger Core.Sample.engineState = some s ∧
    Journal Advances none [e] (some s) ∧ Tells authority args [e] s ∧ s.sequence.toNat = 1 ∧
    s.lastAmountOut = 90 := by
  have hstart : state? Sample.creationLedger Core.Sample.engineState = none := by decide +kernel
  have hevents : ((CallTree.collectAll (emittedBy ID)
      [Sample.creationTree, Sample.submissionTree]).filterMap
        (executionOf Core.Sample.engineState)).map (fun e => e.amountOut) = [90] := by
    decide +kernel
  obtain ⟨hjournal, htold, -⟩ :=
    evidence_recorded Sample.sample_ran Sample.pdaCollisionFree hstart
  obtain ⟨e, hlist, hout⟩ := List.map_eq_singleton_iff.mp hevents
  rw [hlist] at hjournal htold
  cases hend : state? Sample.submissionWorld.ledger Core.Sample.engineState with
  | none =>
    rw [hend] at htold
    cases htold with
    | absent hnone => cases hnone
  | some s =>
    rw [hend] at hjournal htold
    cases htold with
    | present authority args hargs htells =>
      have hlast := htells.last e rfl
      exact ⟨s, authority, args, e, rfl, hjournal, htells, htells.count,
        hlast.amountOut.trans hout⟩

end Sample

end ProgrammableSolana.Routed
