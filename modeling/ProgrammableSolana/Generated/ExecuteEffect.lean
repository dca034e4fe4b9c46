import ProgrammableSolana.Core.ExecuteEffect
import ProgrammableSolana.Generated.Execute

/-! A successful `execute_engine_generated_probe` in parts. -/
namespace ProgrammableSolana.Generated

open ProgrammableSolana.Lib ProgrammableSolana.Solana ProgrammableSolana.Core

section

variable [Crypto]

theorem loadExecute_ok {L : Ledger} {a : ExecuteEngineGeneratedProbeV0} {d : EnvelopeData}
    (h : loadExecute L a = .ok d) :
    a.user.isSigner = true ∧ loadEnvelope config L a.toEnvelope = .ok d ∧
      constrainEnvelope config L a.toEnvelope d (some a.user.key) = .ok () := by
  simp only [loadExecute, loadSigner, except_bind_ok_iff, require_ok_iff, except_pure_ok_iff] at h
  obtain ⟨_, hs, _, hload, _, hconstrain, _, -, rfl⟩ := h
  exact ⟨hs, hload, hconstrain⟩

/-- What loading and checking the accounts establish. -/
structure AccountsOk (L : Ledger) (a : ExecuteEngineGeneratedProbeV0) (d : EnvelopeData) :
    Prop where
  signed : a.user.isSigner = true
  distinct : a.fixedEnvelopeKeys.Nodup
  bound : Bound config L a.toEnvelope d
  profiled : Profiled a.toEnvelope d
  source : ProtectedProfile d.userSourceA a.mintA.key a.user.key

theorem validateAccounts_ok {env : Env config} {L : Ledger} {a : ExecuteEngineGeneratedProbeV0}
    {d : EnvelopeData} {args : ExecuteEngineGeneratedProbeV0Args} {u : Unit}
    (hload : loadExecute L a = .ok d) (h : validateAccounts env L a d args = .ok u) :
    AccountsOk L a d := by
  obtain ⟨hsigned, hload, hconstrain⟩ := loadExecute_ok hload
  unfold validateAccounts at h
  simp only [except_bind_ok_iff, ensureDistinctRoles_ok_iff] at h
  obtain ⟨_, -, _, -, _, hroles, _, hbind, _, -, _, -, _, -, _, -, hprofile⟩ := h
  have hbound := bound_of_ok hload hconstrain hbind
  exact ⟨hsigned, hroles, hbound, profiled_of_ok hprofile, profiledSource_of_ok hprofile⟩

theorem AccountsOk.tokenKeys_nodup {L : Ledger} {a : ExecuteEngineGeneratedProbeV0}
    {d : EnvelopeData} (h : AccountsOk L a d) :
    a.toEnvelope.tokenKeys.Nodup := by
  have hroles := h.distinct
  refine hroles.sublist ?_
  simp only [ExecuteEngineGeneratedProbeV0.fixedEnvelopeKeys, Envelope.tokenKeys]
  exact .cons _ <| .cons _ <| .cons _ <| .cons _ <| .cons _ <| .cons _ <| .cons_cons _ <|
    .cons_cons _ <| .cons_cons _ <| .cons_cons _ <| .cons_cons _ <| List.nil_sublist _

/-- The engine state is no account of the Token program: the engine program is another one. -/
theorem AccountsOk.engineState_foreign {L : Ledger} {a : ExecuteEngineGeneratedProbeV0}
    {d : EnvelopeData} (h : AccountsOk L a d) :
    (L a.engineState.key).owner ≠ tokenProgram := by
  have hroles := h.distinct
  rw [h.bound.engineStateOwner, ← h.bound.tokenProgramKey]
  simp only [ExecuteEngineGeneratedProbeV0.fixedEnvelopeKeys, List.nodup_cons, List.mem_cons,
    not_or] at hroles
  obtain ⟨-, -, -, -, -, -, -, -, -, -, -, hp, -⟩ := hroles
  exact hp.2.2.1

/-- What the checks of the terms establish, and the call they lead to. -/
structure CallOk (env : Env config) (L : Ledger) (a : ExecuteEngineGeneratedProbeV0)
    (d : EnvelopeData) (args : ExecuteEngineGeneratedProbeV0Args) (call : GeneratedCall) :
    Prop where
  amountIn : 0 < args.amountIn
  slot : env.slot ≤ args.expiresAtSlot
  fee : call.protocolFee.toNat = ceilFee args.amountIn.toNat d.market.feeBps.toNat
  maxFee : call.protocolFee ≤ args.maxProtocolFee
  total : call.totalInputDebit.toNat = args.amountIn.toNat + call.protocolFee.toNat
  maxTotal : call.totalInputDebit ≤ args.maxTotalInputDebit
  postA : call.postAccountedA.toNat = d.domain.accountedA.toNat + args.amountIn.toNat
  postFeeA : call.postAccountedFeeA.toNat = d.feeLedger.accountedFeeA.toNat + call.protocolFee.toNat
  capabilityHash : call.capabilityHash = args.expectedCapabilityHash
  binding : call.binding =
    requestBinding a d args call.protocolFee call.capabilityHash call.payloadHash
  requestHash : Wire.Generated.computeRequestHash call.binding = .ok call.requestHash
  programId : call.engineInstruction.programId = a.engineProgram.key
  metas : call.engineInstruction.accounts = [.new a.engineState.key false,
    .newReadonly a.instructionsSysvar.key false] ++ call.opaqueDescriptors.map opaqueMeta
  held : call.totalInputDebit ≤ d.userSourceA.amount
  count : call.opaqueAccountCount.toNat = a.remainingAccounts.length
  few : a.remainingAccounts.length ≤ Wire.maxOpaqueAccounts
  descriptors : List.Forall₂ (fun info descriptor => Admitted config
    (a.remainingAccounts.map (accountView L)) a.fixedEnvelopeKeys (accountView L info) descriptor)
    a.remainingAccounts call.opaqueDescriptors
  capability : Wire.Generated.computeCapabilityHash a.engineProgram.key
    (prefixDescriptors L a ++ call.opaqueDescriptors) = .ok call.capabilityHash
  request : ∃ request, Wire.Generated.EngineRequest.new call.requestHash a.market.key a.domain.key
      d.market.engineRevision args.amountIn d.domain.accountedA d.domain.accountedB
      call.opaqueAccountCount call.capabilityHash args.opaquePayload = .ok request ∧
    Wire.Generated.encodeEvaluateInstruction request = .ok call.engineInstruction.data
  infos : ∃ opaqueInfos, call.opaqueDescriptors.mapM
      (normalizedInfo (a.remainingAccounts.map (accountView L))) = .ok opaqueInfos ∧
    call.engineInfos = [a.engineState, a.instructionsSysvar] ++ opaqueInfos
  payloadHash : Wire.Generated.computePayloadHash args.opaquePayload = .ok call.payloadHash

/-- The opaque accounts go to the engine as their positions allow. -/
theorem CallOk.admitted {env : Env config} {L : Ledger} {a : ExecuteEngineGeneratedProbeV0}
    {d : EnvelopeData} {args : ExecuteEngineGeneratedProbeV0Args} {call : GeneratedCall}
    (h : CallOk env L a d args call) :
    List.Forall₂ (Forwarded config L a.remainingAccounts a.fixedEnvelopeKeys true)
      a.remainingAccounts (call.opaqueDescriptors.map opaqueMeta) := by
  rw [List.forall₂_map_right_iff]
  exact h.descriptors.imp fun info d hd => hd.forwarded rfl (by simp)

theorem planExecution_ok {env : Env config} {L : Ledger} {a : ExecuteEngineGeneratedProbeV0}
    {d : EnvelopeData} {args : ExecuteEngineGeneratedProbeV0Args} {call : GeneratedCall}
    (h : planExecution env L a d args = .ok call) : CallOk env L a d args call := by
  unfold planExecution at h
  simp only [liftWire, except_bind_ok_iff, require_ok_iff, okOr_ok_iff, checkedAdd_eq_some,
    mapError_ok_iff, except_pure_ok_iff] at h
  obtain ⟨_, hin, _, hslot, charge, hcharge, _, hheld, _, -, _, hA, _, hF, ds, hds, capability,
    hcapability, _, hexpected, payload, hpayload, requestHash, hrequestHash, _, hcount, request, hrequest,
    data, hdata, infos, hinfos, rfl⟩ := h
  obtain ⟨-, hfee, hmaxFee, htotal, hmaxTotal⟩ := chargeInput_ok hcharge
  obtain ⟨hlen, hadmitted⟩ := validateOpaqueCapabilities_ok hds
  rw [List.forall₂_map_left_iff] at hadmitted
  rw [List.length_map] at hlen
  exact ⟨hin, hslot, hfee, hmaxFee, htotal, hmaxTotal, hA, hF, hexpected, rfl, hrequestHash, rfl,
    rfl, hheld, opaqueCount_ok hcount, hlen, hadmitted, hcapability, ⟨request, hrequest, hdata⟩,
    ⟨infos, hinfos, rfl⟩, hpayload⟩

theorem CallOk.engine_writable {env : Env config} {L : Ledger} {a : ExecuteEngineGeneratedProbeV0}
    {d : EnvelopeData} {args : ExecuteEngineGeneratedProbeV0Args} {call : GeneratedCall}
    (h : CallOk env L a d args call) {k : Pubkey}
    (hk : (call.engineInstruction.privileges ID).writable k = true) :
    k = a.engineState.key ∨
      ∃ m ∈ call.opaqueDescriptors.map opaqueMeta, m.pubkey = k ∧ m.isWritable = true := by
  simp only [Instruction.privileges, h.metas, AccountMeta.new, AccountMeta.newReadonly,
    List.any_append, List.any_cons, List.any_nil, Bool.or_eq_true, List.any_eq_true,
    Bool.and_eq_true, decide_eq_true_eq, Bool.and_false, Bool.and_true, Bool.or_false] at hk
  rcases hk with hk | ⟨m, hm, hkey, hw⟩
  · exact .inl hk.symm
  · exact .inr ⟨m, hm, hkey, hw⟩

theorem CallOk.engine_foreign {env : Env config} {L : Ledger} {a : ExecuteEngineGeneratedProbeV0}
    {d : EnvelopeData} {args : ExecuteEngineGeneratedProbeV0Args} {call : GeneratedCall}
    (h : CallOk env L a d args call) (ha : AccountsOk L a d) (k : Pubkey)
    (hk : (call.engineInstruction.privileges ID).writable k = true) :
    (L k).owner ≠ tokenProgram := by
  rcases h.engine_writable hk with rfl | ⟨m, hm, rfl, hw⟩
  · exact ha.engineState_foreign
  · exact forwarded_foreign h.admitted hm hw

omit [Crypto] in
theorem acceptReceipt_ok {a : ExecuteEngineGeneratedProbeV0} {d : EnvelopeData}
    {args : ExecuteEngineGeneratedProbeV0Args} {requestHash : Hash}
    {returned : Option (Pubkey × List UInt8)} {receipt : Wire.Generated.EngineReceipt}
    (h : acceptReceipt a d args requestHash returned = .ok receipt) :
    (∃ data, returned = some (a.engineProgram.key, data) ∧
      Wire.Generated.encodeReceipt receipt = .ok data) ∧ receipt.requestHash = requestHash ∧
      0 < receipt.amountOut ∧ args.minOutputCredit ≤ receipt.amountOut ∧
      receipt.amountOut ≤ d.domain.accountedB := by
  unfold acceptReceipt at h
  simp only [liftWire, except_bind_ok_iff, mapError_ok_iff, require_ok_iff, except_pure_ok_iff] at h
  obtain ⟨data, htake, r, hdecode, _, hhash, _, hpos, _, hmin, _, hliq, rfl⟩ := h
  have hencode := Wire.Generated.decodeReceipt_ok_iff.mp hdecode
  exact ⟨⟨data, takeReceipt_ok htake, hencode⟩, hhash, hpos, hmin, hliq⟩

theorem acceptPlan_ok {d : EnvelopeData} {call : GeneratedCall}
    {receipt : Wire.Generated.EngineReceipt} {plan : AcceptedEnginePlan}
    (h : acceptPlan d call receipt = .ok plan) :
    plan.amountOut = receipt.amountOut ∧ plan.protocolFee = call.protocolFee ∧
      plan.totalInputDebit = call.totalInputDebit ∧ plan.postAccountedA = call.postAccountedA ∧
      plan.postAccountedFeeA = call.postAccountedFeeA ∧
      d.domain.accountedB.toNat = plan.postAccountedB.toNat + plan.amountOut.toNat := by
  unfold acceptPlan at h
  simp only [except_bind_ok_iff, okOr_ok_iff, checkedSub_eq_some, except_pure_ok_iff] at h
  obtain ⟨postB, hB, count, -, rfl⟩ := h
  exact ⟨rfl, rfl, rfl, rfl, rfl, hB⟩

def AcceptedEnginePlan.post (plan : AcceptedEnginePlan) : PostAccounted :=
  ⟨plan.postAccountedA, plan.postAccountedB, plan.postAccountedFeeA⟩

/-- Everything a successful execution went through. -/
structure EngineGenerated (env : Env config) (w w' : Core.World) (a : ExecuteEngineGeneratedProbeV0)
    (args : ExecuteEngineGeneratedProbeV0Args) (d after : EnvelopeData) (call : GeneratedCall)
    (receipt : Wire.Generated.EngineReceipt) (plan : AcceptedEnginePlan) : Prop where
  accounts : AccountsOk w.ledger a d
  called : CallOk env w.ledger a d args call
  executed : Executed config w.ledger w'.ledger a.toEnvelope d after a.user.key (plan.terms args)
    plan.post (call.engineInstruction.privileges ID).writable
  amountOut : plan.amountOut = receipt.amountOut
  protocolFee : plan.protocolFee = call.protocolFee
  accepted : 0 < receipt.amountOut ∧ args.minOutputCredit ≤ receipt.amountOut ∧
    receipt.amountOut ≤ d.domain.accountedB
  received : ∃ data, Answered w w' call.engineInstruction a.engineProgram.key data ∧
    Wire.Generated.encodeReceipt receipt = .ok data ∧ receipt.requestHash = call.requestHash
  emitted : ∃ e : EngineGeneratedProbeExecutedV0,
    emittedEvents w'.log = emittedEvents w.log ++ [.engineGeneratedProbeExecuted e] ∧
    e.market = a.market.key ∧ e.amountIn = args.amountIn ∧ e.amountOut = plan.amountOut

/-- Everything the Core checks before it calls the engine. -/
structure Prepared (env : Env config) (L : Ledger) (a : ExecuteEngineGeneratedProbeV0)
    (args : ExecuteEngineGeneratedProbeV0Args) (d : EnvelopeData) (call : GeneratedCall) :
    Prop where
  loaded : loadExecute L a = .ok d
  validated : validateAccounts env L a d args = .ok ()
  planned : planExecution env L a d args = .ok call

theorem execute_prepared {env : Env config} {a : ExecuteEngineGeneratedProbeV0}
    {args : ExecuteEngineGeneratedProbeV0Args} {w w' : Core.World} {u : Unit}
    (h : (handleExecuteEngineGeneratedProbeV0 env a args).run w = (.ok u, w')) :
    ∃ d after call receipt plan, Prepared env w.ledger a args d call ∧
      EngineGenerated env w w' a args d after call receipt plan := by
  simp only [handleExecuteEngineGeneratedProbeV0, settleEngineGeneratedProbe, Exec.bind_ok_iff,
    Exec.get_ok_iff, Exec.ofExcept_ok_iff, Exec.mapError_run_ok_iff, writeAccounted,
    Exec.modify_ok_iff, emit] at h
  obtain ⟨_, _, ⟨rfl, rfl⟩, d, _, ⟨hload, rfl⟩, _, _, ⟨hvalid, rfl⟩, call, _, ⟨hcall, rfl⟩, _, w₁,
    hinvoke, _, _, ⟨rfl, rfl⟩, receipt, _, ⟨hreceipt, rfl⟩, plan, _, ⟨hplan, rfl⟩, after, w₂,
    hsettle, _, _, rfl, rfl⟩ := h
  have ha := validateAccounts_ok hload hvalid
  have hc := planExecution_ok hcall
  have hconf := invokeSigned_confined config.ID_ne_token config.ID_ne_system hinvoke
  obtain ⟨c, hix, hbefore, -, hc', hcalls, hemitted⟩ := invokeSigned_called hinvoke
  obtain ⟨hcalls', hemitted'⟩ := settle_quiet hsettle
  obtain ⟨⟨data, hdata, hencode⟩, hhash, haccepted⟩ := acceptReceipt_ok hreceipt
  obtain ⟨hout, hfee, htotal, hpostA, hpostFeeA, hpostB⟩ := acceptPlan_ok hplan
  have htokens : TokensAt w₁.ledger a.toEnvelope d :=
    tokensAt_of_confined ha.bound.tokensAt hconf (hc.engine_foreign ha)
  obtain ⟨hsettled, -⟩ := settle_ok hsettle htokens ha.tokenKeys_nodup
  refine ⟨d, after, call, receipt, plan, ⟨hload, hvalid, hcall⟩, ha, hc, ?_, hout, hfee, haccepted,
    ⟨data, ⟨c, hix, hbefore, hc'.trans hdata, ?_⟩, hencode, hhash⟩,
    ⟨_, (emittedEvents_append _ _).trans (congrArg (· ++ _) (hemitted'.trans hemitted)), rfl, rfl,
      rfl⟩⟩
  · exact {
      bound := ha.bound
      profiled := ha.profiled
      distinct := ha.tokenKeys_nodup
      engineForeign := hc.engine_foreign ha
      fee := by
        rw [← ha.bound.feeBps]
        exact (congrArg UInt64.toNat hfee).trans hc.fee
      postA := (congrArg UInt64.toNat hpostA).trans hc.postA
      postB := hpostB
      postFeeA := by
        have hpost := hc.postFeeA
        rw [← hpostFeeA, ← hfee] at hpost
        exact hpost
      phases := ⟨w₁.ledger, w₂.ledger, w₂.ledger, hconf, hsettled, .refl _, rfl⟩ }
  · rw [engineCalls_append, hcalls', hcalls]
    simp

theorem execute_ok {env : Env config} {a : ExecuteEngineGeneratedProbeV0}
    {args : ExecuteEngineGeneratedProbeV0Args} {w w' : Core.World} {u : Unit}
    (h : (handleExecuteEngineGeneratedProbeV0 env a args).run w = (.ok u, w')) :
    ∃ d after call receipt plan, EngineGenerated env w w' a args d after call receipt plan := by
  obtain ⟨d, after, call, receipt, plan, -, hgenerated⟩ := execute_prepared h
  exact ⟨d, after, call, receipt, plan, hgenerated⟩

theorem execute_answered {env : Env config} {a : ExecuteEngineGeneratedProbeV0}
    {args : ExecuteEngineGeneratedProbeV0Args} {w w' : Core.World} {u : Unit}
    (h : (handleExecuteEngineGeneratedProbeV0 env a args).run w = (.ok u, w')) :
    ∃ c : EngineCall CoreState, engineCalls w'.log = engineCalls w.log ++ [c] ∧
      c.AnsweredBy env.callee := by
  unfold handleExecuteEngineGeneratedProbeV0 settleEngineGeneratedProbe writeAccounted emit at h
  simp only [Exec.bind_ok_iff, Exec.get_ok_iff, Exec.ofExcept_ok_iff, Exec.mapError_run_ok_iff,
    Exec.modify_ok_iff] at h
  obtain ⟨_, _, ⟨rfl, rfl⟩, _, _, ⟨-, rfl⟩, _, _, ⟨-, rfl⟩, _, _, ⟨-, rfl⟩, _, w₁, hinvoke, _, _,
    ⟨rfl, rfl⟩, _, _, ⟨-, rfl⟩, _, _, ⟨-, rfl⟩, _, w₂, hsettle, _, _, rfl, rfl⟩ := h
  obtain ⟨c, hcalls, hanswered⟩ := invokeSigned_answered hinvoke
  obtain ⟨hquiet, -⟩ := settle_quiet hsettle
  refine ⟨c, ?_, hanswered⟩
  rw [engineCalls_append, hquiet, hcalls]
  simp

end

end ProgrammableSolana.Generated
