import ProgrammableSolana.Engines.RoutedAnswer
import ProgrammableSolana.Routed.ExecuteEffect

/-! Executions of a market whose engine is the routed reference engine. -/
namespace ProgrammableSolana.Routed

open ProgrammableSolana.Lib ProgrammableSolana.Solana ProgrammableSolana.Core
open ProgrammableSolana.Engines

variable [Crypto]

/-- The engine of the execution is the reference engine, whose state is in `MODE_ACCEPT`. -/
structure Served (env : Env config) (w : Core.World) (a : ExecuteCallbackAuthenticatedProbeV0) :
    Prop where
  program : a.engineProgram.key = RoutedPlan.ID
  callee : ∃ helper, env.callee = RoutedPlan.respond helper
  mode : ∀ s, RoutedPlan.loadEngineState w.ledger a.engineState.key = .ok s →
    s.mode = RoutedPlan.modeAccept

theorem served_of_stored {env : Env config} {w : Core.World}
    {a : ExecuteCallbackAuthenticatedProbeV0} {helper : Callee CoreState config.ID}
    {s : RoutedPlan.EngineState} {executable : Bool}
    (hprogram : a.engineProgram.key = RoutedPlan.ID)
    (hcallee : env.callee = RoutedPlan.respond helper)
    (hstored : w.ledger a.engineState.key = ⟨RoutedPlan.ID, executable, .raw s.trySerialize⟩)
    (hmode : s.mode = RoutedPlan.modeAccept) : Served env w a := by
  refine ⟨hprogram, ⟨helper, hcallee⟩, ?_⟩
  intro s' hs'
  rw [RoutedPlan.loadEngineState_stored hstored, Except.ok.injEq] at hs'
  rw [← hs', hmode]

section Quoting

/-- The accounts as the engine sees them begin with its state and the callback address. -/
theorem PhaseCalled.presented {w w' : Core.World} {a : ExecuteCallbackAuthenticatedProbeV0}
    {ds : List Wire.CapabilityDescriptor} {request : Wire.Routed.EngineRequest}
    {callback : AccountInfo} {receipt : Wire.Routed.EngineReceipt} {c : EngineCall CoreState}
    (h : PhaseCalled w w' a ds request callback receipt c) :
    ∃ engineState callbackAuthority opaqueAccounts,
      c.instruction.presented = engineState :: callbackAuthority :: opaqueAccounts ∧
      engineState.key = a.engineState.key ∧ callbackAuthority.key = callback.key := by
  unfold Instruction.presented
  rw [h.metas]
  unfold phaseMetas
  rw [List.map_cons, List.map_cons]
  refine ⟨_, _, _, rfl, ?_, rfl⟩
  split <;> rfl

theorem PhaseCalled.quoted {helper : Callee CoreState config.ID} {w w' : Core.World}
    {a : ExecuteCallbackAuthenticatedProbeV0} {ds : List Wire.CapabilityDescriptor}
    {request : Wire.Routed.EngineRequest} {callback : AccountInfo}
    {receipt : Wire.Routed.EngineReceipt} {c : EngineCall CoreState}
    (h : PhaseCalled w w' a ds request callback receipt c)
    (hanswered : c.AnsweredBy (RoutedPlan.respond helper))
    (hmode : ∀ s, RoutedPlan.loadEngineState w.ledger a.engineState.key = .ok s →
      s.mode = RoutedPlan.modeAccept) :
    ∃ state q, RoutedPlan.loadEngineState w.ledger a.engineState.key = .ok state ∧
      RoutedPlan.quoteExactIn request.binding.accountedInputBefore
        request.binding.accountedOutputBefore request.binding.amountIn state.lpFeeBps = .ok q ∧
      receipt.amountOut = q.amountOut := by
  obtain ⟨response, hresponse, hdata⟩ := hanswered
  obtain ⟨engineState, callbackAuthority, opaqueAccounts, hpresented, hkey, -⟩ := h.presented
  rw [h.before] at hresponse
  obtain ⟨state, q, next, data, e, hev, hreturned⟩ :=
    RoutedPlan.respond_accept hresponse hpresented h.data (by rw [hkey]; exact hmode)
  have hloaded := hev.authenticated.loaded
  rw [hkey] at hloaded
  refine ⟨state, q, hloaded, hev.quoted, ?_⟩
  obtain ⟨data', hreturned', hencode⟩ := h.returned
  have hbytes : data = data' := by
    rw [hdata, hreturned, Option.some.injEq, Prod.mk.injEq] at hreturned'
    exact hreturned'.2
  have hreceipt := Wire.Routed.decodeReceipt_ok_iff.mpr hev.receipt
  rw [hbytes, Wire.Routed.decodeReceipt_ok_iff.mpr hencode, Except.ok.injEq] at hreceipt
  rw [hreceipt]
  rfl

variable {env : Env config} {w w₁ w₂ w₃ w' : Core.World} {a : ExecuteCallbackAuthenticatedProbeV0}
  {args : ExecuteCallbackAuthenticatedProbeV0Args} {x : Stages}

theorem CallbackAuthenticated.calls (h : CallbackAuthenticated env w w₁ w₂ w₃ w' a args x) :
    ∃ cs, engineCalls w'.log = engineCalls w.log ++ x.call :: cs := by
  obtain ⟨e, hlog, -⟩ := h.emitted
  have hcommitted : ∃ cs, engineCalls w₃.log = engineCalls w₂.log ++ cs := by
    rcases h.committed with ⟨-, rfl⟩ | ⟨-, _, _, c, hc⟩
    · exact ⟨[], (List.append_nil _).symm⟩
    · exact ⟨[c], hc.accepted.called.calls⟩
  obtain ⟨cs, hcs⟩ := hcommitted
  refine ⟨cs, ?_⟩
  rw [hlog, engineCalls_append, hcs, h.calls₂, h.primary.called.calls]
  simp

/-- The amount an execution settles is the quote of the reference engine. -/
theorem CallbackAuthenticated.quoted (h : CallbackAuthenticated env w w₁ w₂ w₃ w' a args x)
    (hserved : Served env w a) {c : EngineCall CoreState} {cs : List (EngineCall CoreState)}
    (hcalls : engineCalls w'.log = engineCalls w.log ++ c :: cs)
    (hanswered : c.AnsweredBy env.callee) :
    ∃ state q, RoutedPlan.loadEngineState w.ledger a.engineState.key = .ok state ∧
      RoutedPlan.quoteExactIn x.d.domain.accountedA x.d.domain.accountedB args.amountIn
        state.lpFeeBps = .ok q ∧ x.settlement.amountOut = q.amountOut := by
  obtain ⟨cs', hcalls'⟩ := h.calls
  have hsame : c = x.call := by
    rw [hcalls, List.append_cancel_left_eq, List.cons.injEq] at hcalls'
    exact hcalls'.1
  subst hsame
  obtain ⟨helper, hcallee⟩ := hserved.callee
  rw [hcallee] at hanswered
  obtain ⟨state, q, hloaded, hquote, hamount⟩ := h.primary.called.quoted hanswered hserved.mode
  obtain ⟨capability, hrequest⟩ := h.primary.requested
  rw [hrequest.accountedInputBefore, hrequest.accountedOutputBefore, hrequest.amountIn] at hquote
  refine ⟨state, q, hloaded, hquote, ?_⟩
  rw [h.settlement.amountOut, hamount]

end Quoting

end ProgrammableSolana.Routed
