import ProgrammableSolana.Engines.GeneratedAnswer
import ProgrammableSolana.Generated.Progress

/-! Executions of a market whose engine is the reference engine. -/
namespace ProgrammableSolana.Generated

open ProgrammableSolana.Lib ProgrammableSolana.Solana ProgrammableSolana.Core
open ProgrammableSolana.Engines

variable [Crypto]

/-- The engine of the execution is the reference engine, whose state is in `MODE_ACCEPT`. -/
structure Served (env : Env config) (w : Core.World) (a : ExecuteEngineGeneratedProbeV0) : Prop where
  program : a.engineProgram.key = GeneratedPlan.ID
  callee : ∃ top helper, env.callee = GeneratedPlan.respond top helper
  mode : ∀ s, GeneratedPlan.loadEngineState w.ledger a.engineState.key = .ok s →
    s.mode = GeneratedPlan.modeAccept

theorem served_of_stored {env : Env config} {w : Core.World}
    {a : ExecuteEngineGeneratedProbeV0} {top : GeneratedPlan.Introspection}
    {helper : Callee CoreState config.ID}
    {s : GeneratedPlan.EngineState} {executable : Bool}
    (hprogram : a.engineProgram.key = GeneratedPlan.ID)
    (hcallee : env.callee = GeneratedPlan.respond top helper)
    (hstored : w.ledger a.engineState.key = ⟨GeneratedPlan.ID, executable, .raw s.trySerialize⟩)
    (hmode : s.mode = GeneratedPlan.modeAccept) : Served env w a := by
  refine ⟨hprogram, ⟨top, helper, hcallee⟩, ?_⟩
  intro s' hs'
  rw [GeneratedPlan.loadEngineState_stored hstored, Except.ok.injEq] at hs'
  rw [← hs', hmode]

section Quoting

variable {env : Env config} {w w' : Core.World} {a : ExecuteEngineGeneratedProbeV0}
  {args : ExecuteEngineGeneratedProbeV0Args} {d after : EnvelopeData} {call : GeneratedCall}
  {receipt : Wire.Generated.EngineReceipt} {plan : AcceptedEnginePlan}

/-- The accounts as the engine sees them begin with its state and the sysvar. -/
theorem CallOk.presented (h : CallOk env w.ledger a d args call) :
    ∃ engineState instructionsSysvar opaqueAccounts,
      call.engineInstruction.presented = engineState :: instructionsSysvar :: opaqueAccounts ∧
      engineState.key = a.engineState.key ∧
      instructionsSysvar.key = a.instructionsSysvar.key := by
  unfold Instruction.presented
  rw [h.metas, List.map_append, List.map_cons, List.map_cons, List.map_nil]
  exact ⟨_, _, _, rfl, rfl, rfl⟩

/-- The amount an execution settles is the quote of the reference engine. -/
theorem EngineGenerated.quoted (h : EngineGenerated env w w' a args d after call receipt plan)
    (hserved : Served env w a) {c : EngineCall CoreState}
    (hcalls : engineCalls w'.log = engineCalls w.log ++ [c]) (hanswered : c.AnsweredBy env.callee) :
    ∃ state q, GeneratedPlan.loadEngineState w.ledger a.engineState.key = .ok state ∧
      GeneratedPlan.quoteExactIn d.domain.accountedA d.domain.accountedB args.amountIn
        state.lpFeeBps = .ok q ∧ plan.amountOut = q.amountOut := by
  obtain ⟨data, ⟨c', hix, hbefore, hreturned, hcalls'⟩, hencode, -⟩ := h.received
  have hsame : c = c' := by
    rw [hcalls, List.append_cancel_left_eq, List.cons.injEq] at hcalls'
    exact hcalls'.1
  subst hsame
  obtain ⟨response, hresponse, hdata⟩ := hanswered
  obtain ⟨top, helper, hcallee⟩ := hserved.callee
  obtain ⟨request, hnew, hrequest⟩ := h.called.request
  obtain ⟨engineState, instructionsSysvar, opaqueAccounts, hpresented, hkey, -⟩ :=
    h.called.presented
  rw [hcallee, hix, hbefore] at hresponse
  obtain ⟨state, q, next, data', e, hev, hreturned'⟩ :=
    GeneratedPlan.respond_accept hresponse hpresented hrequest (by rw [hkey]; exact hserved.mode)
  have hloaded := hev.authenticated.loaded
  have hquote := hev.quoted
  obtain ⟨hrequest, -⟩ := Wire.Generated.engineRequest_new_ok hnew
  rw [hrequest] at hquote
  rw [hkey] at hloaded
  refine ⟨state, q, hloaded, hquote, ?_⟩
  have hbytes : data' = data := by
    rw [hdata, hreturned', Option.some.injEq, Prod.mk.injEq] at hreturned
    exact hreturned.2
  have hreceipt := hev.receipt
  rw [hbytes] at hreceipt
  have heq := Wire.Generated.decodeReceipt_ok_iff.mpr hreceipt
  rw [Wire.Generated.decodeReceipt_ok_iff.mpr hencode, Except.ok.injEq] at heq
  rw [h.amountOut, heq]

end Quoting

end ProgrammableSolana.Generated
