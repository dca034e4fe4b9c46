import ProgrammableSolana.Routed.Realization

/-! What the signature of a callback address is good for: it is held only in the engine call of its
phase and below, so the engine evaluates only what the Core asks for. -/
namespace ProgrammableSolana.Routed

open ProgrammableSolana.Lib ProgrammableSolana.Solana ProgrammableSolana.Core
open ProgrammableSolana.Engines
open ProgrammableSolana.Wire.Routed (EngineRequest timingSingle timingPrepareCommit phaseTransition
  phasePrepare phaseCommit)

section Callbacks

variable [Crypto] {derived : Set Derivation} {root t c : Invocation CoreState CoreEvent}
  {callers : List (Frame CoreState CoreEvent)}

/-- The engine call of an execution that the Core carried through. -/
structure AskedBy (root : Invocation CoreState CoreEvent)
    (outer : List (Frame CoreState CoreEvent)) (s c : Invocation CoreState CoreEvent)
    (a : ExecuteCallbackAuthenticatedProbeV0) (args : ExecuteCallbackAuthenticatedProbeV0Args)
    (x : Stages) (request : EngineRequest) : Prop where
  under : root.Under outer s
  called : c ∈ s.calls
  core : s.frame.programId = ID
  executes : Executes s a args x
  phase : PhaseOf a args x request c.frame.call

omit [Crypto] in
private theorem callback_signed {state callback : AccountInfo} {opaqueAccounts : List AccountInfo}
    (hpresented : t.frame.instruction.presented = state :: callback :: opaqueAccounts)
    (hsigner : callback.isSigner = true) : t.frame.Signed callback.key := by
  apply Frame.signed_of_presented _ hsigner
  rw [hpresented]
  simp

/-- Whoever holds the signature of a callback address holds it within the engine call of the phase
the address is for. -/
theorem callback_confined (h : Lawful derived (Behaves derived) root) (hpda : PdaCollisionFree derived)
    {scope : CallbackScope} {key : Pubkey} {bump : UInt8} (hkey : scope.address = some (key, bump))
    (hderived : scope.derivation bump ∈ derived) (ht : root.Under callers t)
    (hsigned : t.frame.Signed key) :
    ∃ outer s c a args x request, AskedBy root outer s c a args x request ∧
      CallbackScope.ofPhase a x request = scope ∧ c.frame.programId = scope.engineProgram ∧
      (t = c ∧ callers = s.frame :: outer ∨ c.frame :: s.frame :: outer <:+ callers) := by
  obtain ⟨outer, s, c, hs, hc, hid, hheld, hline⟩ :=
    h.signed_by hpda hderived (CallbackScope.derivation_address hkey) ht hsigned
  obtain ⟨a, args, x, request, hexecutes, hphase⟩ := ((h.behaves outer s hs).core hid).called hc
  obtain ⟨bump', haddress⟩ := CallbackScope.address_of_signed hphase hheld
  have hasked := (h.behaves outer s hs).derives _ key bump' (.phase c a args x request hc hexecutes
    hphase) haddress
  have hscope := CallbackScope.address_injective hpda haddress hkey hasked hderived
  refine ⟨outer, s, c, a, args, x, request, ⟨hs, hc, hid, hexecutes, hphase⟩, hscope, ?_, hline⟩
  rw [← hscope]
  exact hphase.programId

end Callbacks

section Evaluations

variable [Crypto] {derived : Set Derivation} {root t c : Invocation CoreState CoreEvent}
  {callers : List (Frame CoreState CoreEvent)}

/-- The call of an evaluation was made for a phase of an execution, with the callback of its own
scope. -/
theorem evaluation_asked (h : Lawful derived (Behaves derived) root) (hpda : PdaCollisionFree derived)
    (ht : root.Under callers t) (hid : t.frame.programId = RoutedPlan.ID)
    {e : RoutedPlan.Evaluation} (he : RoutedPlan.process t.frame.before
      t.frame.instruction.presented t.frame.instruction.data = .ok e) :
    ∃ outer s a args x request, callers = s.frame :: outer ∧
      AskedBy root outer s t a args x request ∧
      ∃ engineState callback opaqueAccounts state amountOut stateSequence,
        t.frame.instruction.presented = engineState :: callback :: opaqueAccounts ∧
        CallbackScope.ofPhase a x request =
          CallbackScope.ofBinding engineState.key request.binding ∧
        RoutedPlan.Evaluates t.frame.before engineState callback opaqueAccounts request state
          amountOut stateSequence e := by
  obtain ⟨engineState, callback, opaqueAccounts, request', state, amountOut, stateSequence,
    hpresented, hdecode, hevaluates⟩ := RoutedPlan.process_ok he
  have hauth := hevaluates.authenticated
  have hsigned : t.frame.Signed callback.key := callback_signed hpresented hauth.privileged.1
  obtain ⟨bump, hkey⟩ := CallbackScope.address_of_authenticated hauth.callback
  have hderived := (h.behaves callers t ht).derives _ callback.key bump (.checked engineState callback
    opaqueAccounts request' state amountOut stateSequence e hpresented hevaluates) hkey
  obtain ⟨outer, s, c, a, args, x, request, hasked, hscope, hprogram, hline⟩ :=
    callback_confined h hpda hkey hderived ht hsigned
  have hdirect : t = c ∧ callers = s.frame :: outer := by
    rcases hline with hdirect | hsuffix
    · exact hdirect
    · have hmem : RoutedPlan.ID ∈ callers.map Frame.programId :=
        List.mem_map.mpr ⟨c.frame, hsuffix.subset List.mem_cons_self, hprogram⟩
      exact absurd hid (CallTree.not_again h.noReentry (engine_neverSelf h) ht hmem)
  obtain ⟨rfl, hcallers⟩ := hdirect
  have hrequest : request' = request := by
    have hencoded := RoutedPlan.decode_of_encoded hasked.phase.data
    exact Except.ok.inj (hdecode.symm.trans hencoded)
  subst hrequest
  exact ⟨outer, s, a, args, x, request', hcallers, hasked, engineState, callback, opaqueAccounts,
    state, amountOut, stateSequence, hpresented, hscope, hevaluates⟩

/-- A run of the helper that adds the amount in a payload to a counter left to a callback address. -/
structure Increments (payload : List UInt8) (callback : Pubkey)
    (t : Invocation CoreState CoreEvent) : Prop where
  programId : t.frame.programId = CallbackProbe.ID
  counted : ∃ amount helperState callbackAuthority state next o,
    helperAmount payload = .ok amount ∧
    CallbackProbe.Incremented t.frame.before t.frame.instruction.presented amount helperState
      callbackAuthority state next o ∧
    callbackAuthority.key = callback ∧ next.calls.toNat = state.calls.toNat + 1 ∧
    next.value.toNat = state.value.toNat + amount.toNat ∧
    t.frame.after = o.store t.frame.before CallbackProbe.ID

/-- Whatever an evaluation calls is its helper, for the amount in the payload and by the callback it
was called with itself. -/
theorem evaluation_increments (h : Lawful derived (Behaves derived) root)
    (hc : root.Under callers c) (hid : c.frame.programId = RoutedPlan.ID) {request : EngineRequest}
    {engineState callback : AccountInfo} {opaqueAccounts : List AccountInfo}
    (hpresented : c.frame.instruction.presented = engineState :: callback :: opaqueAccounts)
    (hdata : Wire.Routed.encodeEngineInstruction request = .ok c.frame.instruction.data)
    (ht : t ∈ c.calls) :
    Increments (request.binding.payload.toList.take request.binding.payloadLen.toNat) callback.key
      t := by
  obtain ⟨o, hentry, hran⟩ := (h.behaves callers c hc).engine hid
  obtain ⟨e, engineState', callback', opaqueAccounts', _, _, _, hpresented', hevaluates, rfl⟩ :=
    RoutedPlan.entry_encoded_ok hdata hentry
  have hinfos : engineState' :: callback' :: opaqueAccounts' =
      engineState :: callback :: opaqueAccounts := hpresented'.symm.trans hpresented
  obtain ⟨-, htail⟩ := List.cons_eq_cons.mp hinfos
  obtain ⟨rfl, -⟩ := List.cons_eq_cons.mp htail
  obtain ⟨hprogram, key, amount, haccounts, hpayload, hcall⟩ :=
    hevaluates.helperCall (hran.called ht)
  have hhelper : t.frame.programId = CallbackProbe.ID := hprogram
  obtain ⟨o', hentry', hran'⟩ := (h.behaves _ t (.call hc ht)).helper hhelper
  obtain ⟨-, hafter, -⟩ := hran'.of_none (CallbackProbe.entry_helper hentry')
  obtain ⟨helperState, callbackAuthority, state, next, hincremented, hkey⟩ :=
    CallbackProbe.entry_called haccounts hcall hentry'
  obtain ⟨-, hcalls, hvalue⟩ := CallbackProbe.applyIncrement_ok_iff.mp hincremented.applied
  exact ⟨hhelper, amount, helperState, callbackAuthority, state, next, o', hpayload, hincremented,
    hkey, hcalls, hvalue, hafter⟩

/-- The reference engine evaluates nothing but the phases of executions that the Core carries
through: each evaluation is a call of the Core itself, for the engine state, market, domain, intent and
phase that the request names, and with the request the Core made out. What it calls in turn is the
helper, which adds the amount in the payload by the same callback. -/
theorem evaluation_authentic (h : Lawful derived (Behaves derived) root)
    (hpda : PdaCollisionFree derived)
    (ht : root.Under callers t) (hid : t.frame.programId = RoutedPlan.ID)
    {e : RoutedPlan.Evaluation} (he : RoutedPlan.process t.frame.before
      t.frame.instruction.presented t.frame.instruction.data = .ok e) :
    ∃ outer s a args x, callers = s.frame :: outer ∧ t ∈ s.calls ∧ s.frame.programId = ID ∧
      Executes s a args x ∧ a.engineProgram.key = RoutedPlan.ID ∧
      ∃ engineState callback opaqueAccounts,
        t.frame.instruction.presented = engineState :: callback :: opaqueAccounts ∧
        engineState.key = a.engineState.key ∧
        ∃ request, Wire.Routed.encodeEngineInstruction request = .ok t.frame.instruction.data ∧
          request.binding.market = a.market.key ∧ request.binding.domain = a.domain.key ∧
          request.binding.intentDigest = x.intent.intentDigest ∧
          ∃ pda, canonicalCallback a x.intent.intentDigest request.binding.phase = .ok pda ∧
            callback.key = pda.key ∧ ∀ c ∈ t.calls, Increments
              (request.binding.payload.toList.take request.binding.payloadLen.toNat) pda.key c := by
  obtain ⟨outer, s, a, args, x, request, hcallers, hasked, engineState, callback, opaqueAccounts,
    state, amountOut, stateSequence, hpresented, hscope, hevaluates⟩ :=
    evaluation_asked h hpda ht hid he
  have hsigned : t.frame.Signed callback.key :=
    callback_signed hpresented hevaluates.authenticated.privileged.1
  obtain ⟨pda, hkey, hpda'⟩ := hasked.phase.signed hsigned
  obtain ⟨_, _, _, hrequest⟩ := hasked.phase.requested
  refine ⟨outer, s, a, args, x, hcallers, hasked.called, hasked.core, hasked.executes, ?_,
    engineState, callback, opaqueAccounts, hpresented, ?_, request, hasked.phase.data,
    hrequest.market, hrequest.domain, hrequest.intentDigest, pda, hpda', hkey, ?_⟩
  · exact congrArg CallbackScope.engineProgram hscope
  · exact (congrArg CallbackScope.engineState hscope).symm
  · intro c hc
    rw [← hkey]
    exact evaluation_increments h ht hid hpresented hasked.phase.data hc

end Evaluations

section Sample

attribute [local instance] Sample.collisionFree

theorem evaluation_authentic_sample : ∃ t ∈ Sample.submissionTree.calls, ∃ s a args x,
    t ∈ s.calls ∧ Executes s a args x ∧ a.engineProgram.key = RoutedPlan.ID ∧
    ∃ request, Wire.Routed.encodeEngineInstruction request = .ok t.frame.instruction.data ∧
      request.binding.market = a.market.key := by
  obtain ⟨t, ht, hid, e, hprocess⟩ := Sample.submissionTree_called
  obtain ⟨outer, s, a, args, x, -, hmem, -, hexecutes, hprogram, _, _, _, -, -, request, hdata,
    hmarket, -⟩ := evaluation_authentic Sample.submissionTree_lawful Sample.pdaCollisionFree
      (.call .root ht) hid hprocess
  exact ⟨t, ht, s, a, args, x, hmem, hexecutes, hprogram, request, hdata, hmarket⟩

end Sample

end ProgrammableSolana.Routed
