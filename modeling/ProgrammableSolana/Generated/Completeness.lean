import ProgrammableSolana.Core.Presented
import ProgrammableSolana.Generated.Reference
import ProgrammableSolana.Generated.Runs

/-! The Core and the reference engine agree on the executions that go through: those that pass the
Core's checks and that the engine can quote. -/
namespace ProgrammableSolana.Generated

open ProgrammableSolana.Lib ProgrammableSolana.Solana ProgrammableSolana.Core
open ProgrammableSolana.Engines

section Agreement

variable [Crypto]

/-- The engine of the market is the reference engine, ready for this revision of the market, and the
execution is the top-level instruction. -/
structure Hosted (env : Env config) (w : Core.World) (a : ExecuteEngineGeneratedProbeV0)
    (args : ExecuteEngineGeneratedProbeV0Args) (top : GeneratedPlan.Introspection)
    (helper : Callee CoreState config.ID) (m : MarketV0) (s : GeneratedPlan.EngineState) :
    Prop where
  market : w.ledger.state? config.ID a.market.key = some (.market m)
  program : m.engineProgram = GeneratedPlan.ID
  loaded : GeneratedPlan.loadEngineState w.ledger m.engineState = .ok s
  stateMarket : s.market = a.market.key
  revision : s.revision = m.engineRevision
  mode : s.mode = GeneratedPlan.modeAccept
  sequence : s.sequence.toNat + 1 < 2 ^ 64
  callee : env.callee = GeneratedPlan.respond top helper
  topHeight : top.stackHeight = env.stackHeight + 1
  topProgram : top.programId = ID
  topData : GeneratedPlan.coreExecuteEngineGeneratedProbeDiscriminator <+: top.data
  sysvar : (w.ledger instructionsSysvarId).executable = false
  payload : args.opaquePayload.head? ≠ some helperPayloadTag
  supplyA : totalBalance w.ledger m.mintA < 2 ^ 64
  supplyB : totalBalance w.ledger m.mintB < 2 ^ 64

/-- The state after an accepted execution. -/
def nextState (s : GeneratedPlan.EngineState) (requestHash : Hash) (amountOut : UInt64) :
    GeneratedPlan.EngineState :=
  { s with sequence := s.sequence + 1, lastRequestHash := requestHash, lastAmountOut := amountOut }

variable {env : Env config} {w : Core.World} {a : ExecuteEngineGeneratedProbeV0}
  {args : ExecuteEngineGeneratedProbeV0Args} {top : GeneratedPlan.Introspection}
  {helper : Callee CoreState config.ID} {m : MarketV0} {s : GeneratedPlan.EngineState}
  {d : EnvelopeData} {call : GeneratedCall}

theorem Prepared.ready (h : Prepared env w.ledger a args d call) : Ready env w.ledger a d args :=
  ready_of_ok h.loaded h.validated

theorem Prepared.called (h : Prepared env w.ledger a args d call) :
    CallOk env w.ledger a d args call :=
  planExecution_ok h.planned

theorem Prepared.market (h : Prepared env w.ledger a args d call)
    (hh : Hosted env w a args top helper m s) : d.market = m := by
  have hmarket := h.ready.accounts.bound.market
  have hm := hh.market
  rw [hmarket, Option.some.injEq, CoreState.market.injEq] at hm
  exact hm

theorem Hosted.served (hh : Hosted env w a args top helper m s)
    (h : Prepared env w.ledger a args d call) : Served env w a := by
  have hbound := h.ready.accounts.bound
  have hm := h.market hh
  refine ⟨?_, ⟨top, helper, hh.callee⟩, ?_⟩
  · rw [hbound.engineProgram, hm, hh.program]
  · intro s' hs'
    rw [hbound.engineState, hm, hh.loaded, Except.ok.injEq] at hs'
    rw [← hs', hh.mode]

/-- No opaque account is the engine state or the sysvar. -/
theorem CallOk.opaque_ne (h : CallOk env w.ledger a d args call) :
    ∀ x ∈ call.opaqueDescriptors,
      x.key ≠ a.engineState.key ∧ x.key ≠ a.instructionsSysvar.key := by
  intro x hx
  have hfixed := admitted_notFixed h.descriptors hx
  constructor
  · intro heq
    exact hfixed (by simp [heq, ExecuteEngineGeneratedProbeV0.fixedEnvelopeKeys])
  · intro heq
    exact hfixed (by simp [heq, ExecuteEngineGeneratedProbeV0.fixedEnvelopeKeys])

/-- The engine sees its state writable, the sysvar, and the opaque accounts as they were admitted. -/
theorem CallOk.presented_eq (h : CallOk env w.ledger a d args call) (ha : AccountsOk w.ledger a d) :
    call.engineInstruction.presented = ⟨a.engineState.key, false, true⟩ ::
      ⟨a.instructionsSysvar.key, false, false⟩ :: call.opaqueDescriptors.map opaqueView := by
  have hmetas := h.metas
  rw [List.cons_append, List.cons_append, List.nil_append] at hmetas
  have hne : a.engineState.key ≠ a.instructionsSysvar.key := by
    have hroles := ha.distinct
    simp only [ExecuteEngineGeneratedProbeV0.fixedEnvelopeKeys, List.nodup_cons, List.mem_cons,
      not_or] at hroles
    obtain ⟨-, -, -, -, -, -, -, -, -, -, -, -, ⟨hne, -⟩, -⟩ := hroles
    exact hne
  exact presented_capabilities hmetas hne (fun x hx => (h.opaque_ne x hx).1)
    (fun x hx => (h.opaque_ne x hx).2) fun x hx x' hx' => admitted_agree h.descriptors hx hx'

theorem Prepared.observed (h : Prepared env w.ledger a args d call)
    (hh : Hosted env w a args top helper m s) :
    GeneratedPlan.capabilityDescriptor w.ledger ⟨a.engineState.key, false, true⟩ ::
      GeneratedPlan.capabilityDescriptor w.ledger ⟨a.instructionsSysvar.key, false, false⟩ ::
      (call.opaqueDescriptors.map opaqueView).map (GeneratedPlan.capabilityDescriptor w.ledger) =
    prefixDescriptors w.ledger a ++ call.opaqueDescriptors := by
  have hviews : (call.opaqueDescriptors.map opaqueView).map
      (GeneratedPlan.capabilityDescriptor w.ledger) = call.opaqueDescriptors := by
    rw [List.map_map]
    refine (List.map_congr_left fun x hx => ?_).trans (List.map_id _)
    have hx := admitted_described h.called.descriptors hx
    unfold Function.comp opaqueView GeneratedPlan.capabilityDescriptor
    dsimp only
    rw [← hx.owner, ← hx.isExecutable, ← hx.isSigner]
    rfl
  have hsysvar := hh.sysvar
  rw [← h.ready.sysvar] at hsysvar
  rw [hviews]
  unfold prefixDescriptors GeneratedPlan.capabilityDescriptor
  rw [h.ready.engineState, hsysvar]
  rfl

/-- Nothing that the engine checks of a call of the Core's making fails. -/
theorem Prepared.authenticated (h : Prepared env w.ledger a args d call)
    (hh : Hosted env w a args top helper m s) :
    ∃ request, Wire.Generated.encodeEvaluateInstruction request = .ok call.engineInstruction.data ∧
      request.requestHash = call.requestHash ∧ request.amountIn = args.amountIn ∧
      request.accountedInputBefore = d.domain.accountedA ∧
      request.accountedOutputBefore = d.domain.accountedB ∧
      request.payload.toList.take request.payloadLen.toNat = args.opaquePayload ∧
      GeneratedPlan.Authenticated w.ledger top
        ⟨⟨a.engineState.key, false, true⟩, ⟨a.instructionsSysvar.key, false, false⟩⟩
        (call.opaqueDescriptors.map opaqueView) request s := by
  have hr := h.ready
  have hc := h.called
  have hm := h.market hh
  obtain ⟨request, hnew, hdata⟩ := hc.request
  obtain ⟨hrequest, hcanonical⟩ := Wire.Generated.engineRequest_new_ok hnew
  obtain ⟨payloadLen, field, hfield, -, htake⟩ := Wire.canonicalPayload_ok hr.payload
  have hbytes : request.payload.toList.take request.payloadLen.toNat = args.opaquePayload := by
    rw [hcanonical, Except.ok.injEq, Prod.mk.injEq] at hfield
    rw [hfield.1, hfield.2]
    exact htake
  have hlen : (call.opaqueDescriptors.map opaqueView).length = a.remainingAccounts.length := by
    rw [List.length_map]
    exact hc.descriptors.length_eq.symm
  have hstate : a.engineState.key = m.engineState := by
    rw [← hm]
    exact hr.accounts.bound.engineState
  refine ⟨request, hdata, by rw [hrequest], by rw [hrequest], by rw [hrequest], by rw [hrequest],
    hbytes, ?_⟩
  constructor
  · show GeneratedPlan.loadEngineState w.ledger a.engineState.key = .ok s
    rw [hstate]
    exact hh.loaded
  · rfl
  · exact hr.sysvar
  · simp only [GeneratedPlan.requireDirectCoreCpi, except_bind_ok_iff, require_ok_iff]
    refine ⟨(), ?_, (), ?_, hh.topData⟩
    · rw [hh.topHeight, hr.topLevel]
      rfl
    · rw [hh.topProgram]
      rfl
  · rw [hlen]
    exact hc.few
  · rw [hlen, hrequest]
    exact hc.count.symm
  · rw [hrequest]
    exact hh.stateMarket
  · rw [hrequest, hm]
    exact hh.revision
  · rw [h.observed hh, hrequest]
    have hprogram : a.engineProgram.key = GeneratedPlan.ID := by
      rw [hr.accounts.bound.engineProgram, hm, hh.program]
    rw [← hprogram]
    exact hc.capability

variable {q : CpmmQuote}

/-- What the engine answers the Core with, where it can quote. -/
theorem Prepared.answered (h : Prepared env w.ledger a args d call)
    (hh : Hosted env w a args top helper m s)
    (hq : GeneratedPlan.quoteExactIn d.domain.accountedA d.domain.accountedB args.amountIn
      s.lpFeeBps = .ok q) :
    ∃ data, Wire.Generated.encodeReceipt ⟨call.requestHash, q.amountOut, s.sequence + 1⟩ =
        .ok data ∧
      env.callee call.engineInstruction w.ledger = some {
        actions := [.write GeneratedPlan.ID a.engineState.key GeneratedPlan.ID false
          (nextState s call.requestHash q.amountOut).trySerialize]
        returned := some (GeneratedPlan.ID, data) } := by
  obtain ⟨request, hdata, hhash, hin, hA, hB, hbytes, hauth⟩ := h.authenticated hh
  have hreceipt := Wire.Generated.encodeReceipt_eq ⟨call.requestHash, q.amountOut, s.sequence + 1⟩
  refine ⟨_, hreceipt, ?_⟩
  obtain ⟨encoded, hencode, hprocess⟩ := GeneratedPlan.process_eq w.ledger top
    ⟨a.engineState.key, false, true⟩ ⟨a.instructionsSysvar.key, false, false⟩
    (call.opaqueDescriptors.map opaqueView) hdata
  have hmode : ∀ s', GeneratedPlan.loadEngineState w.ledger a.engineState.key = .ok s' →
      s'.mode = GeneratedPlan.modeAccept := by
    intro s' hs'
    rw [hauth.loaded, Except.ok.injEq] at hs'
    rw [← hs', hh.mode]
  have hadvance : GeneratedPlan.advance s request q.amountOut =
      .ok (nextState s call.requestHash q.amountOut) := by
    have hadd : checkedAdd s.sequence 1 = some (s.sequence + 1) := if_pos hh.sequence
    simp only [GeneratedPlan.advance, except_bind_ok_iff, okOr_ok_iff, except_pure_ok_iff, hadd]
    refine ⟨_, rfl, ?_⟩
    rw [hhash]
    rfl
  have hhelper : GeneratedPlan.helperInstruction w.ledger
      (request.payload.toList.take request.payloadLen.toNat)
      (call.opaqueDescriptors.map opaqueView) a.engineState.key s.capabilityAuthorityBump =
        .ok none := by
    rw [hbytes]
    exact if_pos hh.payload
  have heval := (GeneratedPlan.evaluate_ok_iff (e := ⟨none, (a.engineState.key,
    nextState s call.requestHash q.amountOut), some _⟩) hencode hmode).mpr
      ⟨s, q, _, _, hauth, by rw [hA, hB, hin]; exact hq, hadvance, by rw [hhash]; exact hreceipt,
        hhelper, rfl, rfl⟩
  have hanswer := hprocess.trans heval
  rw [← h.called.presented_eq h.ready.accounts] at hanswer
  rw [hh.callee]
  exact GeneratedPlan.respond_eq_some_iff.mpr ⟨_, ⟨[], none⟩, hanswer, rfl, rfl⟩

/-- The engine call goes through, and leaves the receipt and the next state. -/
theorem Prepared.invoked (h : Prepared env w.ledger a args d call)
    (hh : Hosted env w a args top helper m s)
    (hq : GeneratedPlan.quoteExactIn d.domain.accountedA d.domain.accountedB args.amountIn
      s.lpFeeBps = .ok q) :
    ∃ w₁ data, (invokeSigned ID env.callee a.infos call.engineInstruction call.engineInfos []).run
        w = (.ok (), w₁) ∧
      Wire.Generated.encodeReceipt ⟨call.requestHash, q.amountOut, s.sequence + 1⟩ = .ok data ∧
      w₁.returnData = some (a.engineProgram.key, data) ∧
      w₁.ledger a.engineState.key = ⟨GeneratedPlan.ID, false,
        .raw (nextState s call.requestHash q.amountOut).trySerialize⟩ := by
  have hr := h.ready
  have hc := h.called
  have hm := h.market hh
  have hbound := hr.accounts.bound
  have hprogram : a.engineProgram.key = GeneratedPlan.ID := by
    rw [hbound.engineProgram, hm, hh.program]
  obtain ⟨data, hdata, hresponse⟩ := h.answered hh hq
  obtain ⟨opaqueInfos, hnormalized, hinfos⟩ := hc.infos
  obtain ⟨found, hfound, hkeys⟩ :=
    normalizedInfos_succeed hc.descriptors fun x hx => ⟨x, hx, .refl x⟩
  rw [hnormalized, Except.ok.injEq] at hfound
  subst hfound
  have hcaller : ∀ info ∈ a.remainingAccounts, info ∈ a.infos := fun info hinfo =>
    List.mem_append_right _ hinfo
  have hmetas := hc.metas
  rw [List.cons_append, List.cons_append, List.nil_append] at hmetas
  have hstate : (w.ledger a.engineState.key).owner = GeneratedPlan.ID := by
    rw [hbound.engineStateOwner, hprogram]
  have hcallable : (call.engineInstruction.privileges ID).callable GeneratedPlan.ID = true := by
    unfold Instruction.privileges
    simp only [hc.programId, hprogram, decide_true, Bool.true_or, Bool.true_and, decide_eq_true_eq]
    decide
  have hwritable : (call.engineInstruction.privileges ID).writable a.engineState.key = true := by
    unfold Instruction.privileges
    simp only [hmetas, List.any_cons, AccountMeta.new, decide_true, Bool.true_and, Bool.true_or]
  refine ⟨_, data, invokeSigned_succeeds ?_ ?_ ?_ ?_ ?_ hresponse
    (performAll_write hcallable (by decide) hwritable hstate), hdata, ?_, ?_⟩
  · intro position hposition
    rw [hmetas] at hposition
    rw [hinfos]
    rcases List.mem_cons.mp hposition with rfl | hposition
    · exact ⟨a.engineState, by simp, rfl⟩
    · rcases List.mem_cons.mp hposition with rfl | hposition
      · exact ⟨a.instructionsSysvar, by simp, rfl⟩
      · obtain ⟨x, hx, rfl⟩ := List.mem_map.mp hposition
        obtain ⟨i, hi, -, hkey⟩ := exists_of_forall₂_mem hkeys.flip hx
        exact ⟨i, List.mem_append_right _ hi, by rw [hkey, opaqueMeta_pubkey]⟩
  · intro position hposition
    rw [hmetas] at hposition
    rcases List.mem_cons.mp hposition with rfl | hposition
    · refine ⟨fun _ => ⟨a.engineState, ?_, rfl, hr.stateWritable⟩, by simp [AccountMeta.new]⟩
      simp [ExecuteEngineGeneratedProbeV0.infos]
    · rcases List.mem_cons.mp hposition with rfl | hposition
      · simp [AccountMeta.Granted, AccountMeta.newReadonly]
      · obtain ⟨x, hx, rfl⟩ := List.mem_map.mp hposition
        exact admitted_granted hc.descriptors hcaller hx (.refl x)
  · refine ⟨a.engineProgram, by simp [ExecuteEngineGeneratedProbeV0.infos], hc.programId.symm⟩
  · rw [hc.programId]
    exact hr.engineProgram
  · rw [hc.programId]
    exact hbound.engineNotCore
  · rw [hprogram]
  · exact Function.update_self _ _ _

omit [Crypto] in
private theorem acceptReceipt_quoted {data : List UInt8} {returned : Option (Pubkey × List UInt8)}
    (hq : GeneratedPlan.quoteExactIn d.domain.accountedA d.domain.accountedB args.amountIn
      s.lpFeeBps = .ok q)
    (hmin : args.minOutputCredit ≤ q.amountOut)
    (hdata : Wire.Generated.encodeReceipt ⟨call.requestHash, q.amountOut, s.sequence + 1⟩ = .ok data)
    (hreturned : returned = some (a.engineProgram.key, data)) :
    acceptReceipt a d args call.requestHash returned =
      .ok ⟨call.requestHash, q.amountOut, s.sequence + 1⟩ := by
  obtain ⟨-, -, -, -, -, hpos, hlt⟩ := quoteExactIn_ok hq
  have hzero : (0 : UInt64).toNat = 0 := rfl
  have hdecode := Wire.Generated.decodeReceipt_ok_iff.mpr hdata
  simp only [acceptReceipt, takeReceipt, liftWire, hreturned, except_bind_ok_iff, okOr_ok_iff,
    require_ok_iff, mapError_ok_iff, except_pure_ok_iff]
  have hliquid : q.amountOut ≤ d.domain.accountedB := UInt64.le_iff_toNat_le.mpr hlt.le
  have hnonzero : 0 < q.amountOut := by
    rw [UInt64.lt_iff_toNat_lt, hzero]
    exact hpos
  exact ⟨data, ⟨_, rfl, (), rfl, rfl⟩, _, hdecode, (), rfl, (), hnonzero, (), hmin, (), hliquid, rfl⟩

theorem engineState_untouched (h : AccountsOk w.ledger a d) :
    a.engineState.key ∉ a.toEnvelope.tokenKeys ∧ a.engineState.key ≠ a.domain.key ∧
      a.engineState.key ≠ a.feeLedger.key := by
  have hroles := h.distinct
  simp only [ExecuteEngineGeneratedProbeV0.fixedEnvelopeKeys, List.nodup_cons, List.mem_cons,
    List.not_mem_nil, or_false, not_or] at hroles
  obtain ⟨-, -, hd, hf, -, -, hs, ht, hva, hvb, hfv, -⟩ := hroles
  refine ⟨?_, fun heq => ?_, fun heq => ?_⟩
  · intro hmem
    simp only [Envelope.tokenKeys, List.mem_cons, List.not_mem_nil, or_false] at hmem
    rcases hmem with heq | heq | heq | heq | heq
    · exact hs.2.2.2.2.2.1 heq.symm
    · exact ht.2.2.2.2.1 heq.symm
    · exact hva.2.2.2.1 heq.symm
    · exact hvb.2.2.1 heq.symm
    · exact hfv.2.1 heq.symm
  · exact hd.2.2.2.2.2.2.2.2.2.1 heq.symm
  · exact hf.2.2.2.2.2.2.2.2.1 heq.symm

/-- A settlement changes the five token accounts and the two books. -/
theorem settleEngineGeneratedProbe_frame {w₁ w' : Core.World} {plan : AcceptedEnginePlan}
    (h : (settleEngineGeneratedProbe a d args plan).run w₁ = (.ok (), w'))
    (htokens : TokensAt w₁.ledger a.toEnvelope d) (hnodup : a.toEnvelope.tokenKeys.Nodup)
    {k : Pubkey} (hk : k ∉ a.toEnvelope.tokenKeys) (hd : k ≠ a.domain.key)
    (hf : k ≠ a.feeLedger.key) : w'.ledger k = w₁.ledger k := by
  unfold settleEngineGeneratedProbe writeAccounted emit at h
  simp only [Exec.bind_ok_iff, Exec.modify_ok_iff] at h
  obtain ⟨after, w₂, hsettle, _, _, rfl, rfl⟩ := h
  obtain ⟨hsettled, -⟩ := settle_ok hsettle htokens hnodup
  rw [← hsettled.frame k hk]
  exact @accountedLedger_of_ne w₂.ledger a.toEnvelope d plan.post k hd hf

/-- An execution that passed the Core's checks and can be quoted goes through, and moves the engine
by one sequence. -/
theorem Prepared.succeeds (h : Prepared env w.ledger a args d call)
    (hh : Hosted env w a args top helper m s)
    (hq : GeneratedPlan.quoteExactIn d.domain.accountedA d.domain.accountedB args.amountIn
      s.lpFeeBps = .ok q)
    (hmin : args.minOutputCredit ≤ q.amountOut) :
    ∃ w', (handleExecuteEngineGeneratedProbeV0 env a args).run w = (.ok (), w') ∧
      GeneratedPlan.loadEngineState w'.ledger a.engineState.key =
        .ok (nextState s call.requestHash q.amountOut) := by
  have hr := h.ready
  have hc := h.called
  have ha := hr.accounts
  have hm := h.market hh
  have hA := hh.supplyA
  have hB := hh.supplyB
  rw [← hm, ← ha.bound.mintAKey] at hA
  rw [← hm, ← ha.bound.mintBKey] at hB
  obtain ⟨w₁, data, hinvoke, hdata, hreturned, hstored⟩ := h.invoked hh hq
  have hreceipt := acceptReceipt_quoted hq hmin hdata hreturned
  have hout := (acceptReceipt_ok hreceipt).2.2.2.2
  obtain ⟨plan, hplan⟩ := acceptPlan_succeeds hc hout
  have hconf := invokeSigned_confined config.ID_ne_token config.ID_ne_system hinvoke
  obtain ⟨w', hsettle⟩ := settleEngineGeneratedProbe_succeeds hr hc hA hB hconf hplan hout
  refine ⟨w', ?_, ?_⟩
  · simp only [handleExecuteEngineGeneratedProbeV0, Exec.bind_ok_iff, Exec.get_ok_iff,
      Exec.ofExcept_ok_iff, Exec.mapError_run_ok_iff]
    exact ⟨w, w, ⟨rfl, rfl⟩, d, w, ⟨h.loaded, rfl⟩, (), w, ⟨h.validated, rfl⟩, call, w,
      ⟨h.planned, rfl⟩, (), w₁, hinvoke, w₁, w₁, ⟨rfl, rfl⟩, _, w₁, ⟨hreceipt, rfl⟩, plan, w₁,
      ⟨hplan, rfl⟩, hsettle⟩
  · obtain ⟨htoken, hdomain, hfee⟩ := engineState_untouched ha
    have htokens := tokensAt_of_confined ha.bound.tokensAt hconf (hc.engine_foreign ha)
    apply GeneratedPlan.loadEngineState_stored
    rw [settleEngineGeneratedProbe_frame hsettle htokens ha.tokenKeys_nodup htoken hdomain hfee]
    exact hstored

end Agreement

/-- An execution on a market that the reference engine hosts goes through exactly if the Core's own
checks pass and the engine can quote it above the user's minimum. It then settles the quote, and no
check of the engine is made on which the two could differ. -/
theorem execute_iff_quoted [Crypto] (env : Env config) (w : Core.World)
    (a : ExecuteEngineGeneratedProbeV0) (args : ExecuteEngineGeneratedProbeV0Args)
    (top : GeneratedPlan.Introspection) (helper : Callee CoreState config.ID) (m : MarketV0)
    (s : GeneratedPlan.EngineState) (hh : Hosted env w a args top helper m s) :
    ((∃ w', (handleExecuteEngineGeneratedProbeV0 env a args).run w = (.ok (), w')) ↔
      ∃ d call q, Prepared env w.ledger a args d call ∧
        GeneratedPlan.quoteExactIn d.domain.accountedA d.domain.accountedB args.amountIn
          s.lpFeeBps = .ok q ∧ args.minOutputCredit ≤ q.amountOut) ∧
    (∀ w', (handleExecuteEngineGeneratedProbeV0 env a args).run w = (.ok (), w') →
      ∃ d after call q receipt plan, Prepared env w.ledger a args d call ∧
        EngineGenerated env w w' a args d after call receipt plan ∧
        GeneratedPlan.quoteExactIn d.domain.accountedA d.domain.accountedB args.amountIn
          s.lpFeeBps = .ok q ∧ plan.amountOut = q.amountOut ∧
        GeneratedPlan.loadEngineState w'.ledger m.engineState =
          .ok (nextState s call.requestHash q.amountOut)) ∧
    ∀ d call, Prepared env w.ledger a args d call →
      ∃ engineState instructionsSysvar opaqueAccounts request,
        call.engineInstruction.presented = engineState :: instructionsSysvar :: opaqueAccounts ∧
        Wire.Generated.encodeEvaluateInstruction request = .ok call.engineInstruction.data ∧
        GeneratedPlan.Authenticated w.ledger top ⟨engineState, instructionsSysvar⟩ opaqueAccounts
          request s := by
  have hexecuted : ∀ w', (handleExecuteEngineGeneratedProbeV0 env a args).run w = (.ok (), w') →
      ∃ d after call q receipt plan, Prepared env w.ledger a args d call ∧
        EngineGenerated env w w' a args d after call receipt plan ∧
        GeneratedPlan.quoteExactIn d.domain.accountedA d.domain.accountedB args.amountIn
          s.lpFeeBps = .ok q ∧ plan.amountOut = q.amountOut ∧
        args.minOutputCredit ≤ q.amountOut := by
    intro w' hrun
    obtain ⟨d, after, call, receipt, plan, hprepared, hg⟩ := execute_prepared hrun
    obtain ⟨c, hcalls, hanswered⟩ := execute_answered hrun
    obtain ⟨state, q, hloaded, hq, hout⟩ := hg.quoted (hh.served hprepared) hcalls hanswered
    have hstate : state = s := by
      have hs := hh.loaded
      rw [← hprepared.market hh, ← hg.accounts.bound.engineState, hloaded, Except.ok.injEq] at hs
      exact hs
    subst hstate
    refine ⟨d, after, call, q, receipt, plan, hprepared, hg, hq, hout, ?_⟩
    rw [← hout, hg.amountOut]
    exact hg.accepted.2.1
  refine ⟨⟨?_, ?_⟩, ?_, ?_⟩
  · rintro ⟨w', hrun⟩
    obtain ⟨d, -, call, q, -, -, hprepared, -, hq, -, hmin⟩ := hexecuted w' hrun
    exact ⟨d, call, q, hprepared, hq, hmin⟩
  · rintro ⟨d, call, q, hprepared, hq, hmin⟩
    obtain ⟨w', hrun, -⟩ := hprepared.succeeds hh hq hmin
    exact ⟨w', hrun⟩
  · intro w' hrun
    obtain ⟨d, after, call, q, receipt, plan, hprepared, hg, hq, hout, hmin⟩ := hexecuted w' hrun
    obtain ⟨w'', hrun', hnext⟩ := hprepared.succeeds hh hq hmin
    have hsame : w'' = w' := by
      rw [hrun, Prod.mk.injEq] at hrun'
      exact hrun'.2.symm
    rw [hsame, hg.accounts.bound.engineState, hprepared.market hh] at hnext
    exact ⟨d, after, call, q, receipt, plan, hprepared, hg, hq, hout, hnext⟩
  · intro d call hprepared
    obtain ⟨request, hdata, -, -, -, -, -, hauth⟩ := hprepared.authenticated hh
    exact ⟨_, _, _, request, hprepared.called.presented_eq hprepared.ready.accounts, hdata, hauth⟩

namespace Sample

open ProgrammableSolana.Core.Sample

attribute [local instance] crypto

/-- The state of the engine before the sample execution. -/
def engineStateBefore : GeneratedPlan.EngineState where
  authority := user
  market := market.market
  revision := 1
  lpFeeBps := 30
  sequence := 0
  lastRequestHash := Bytes.zero 32
  lastAmountOut := 0
  capabilityAuthorityBump := 255
  mode := GeneratedPlan.modeAccept

theorem hosted : Hosted env (world (live 0)) execute executeArgs top (fun _ _ => none) data.market
    engineStateBefore where
  market := by decide +kernel
  program := rfl
  loaded := @GeneratedPlan.loadEngineState_stored _ (live 0) engineState engineStateBefore false rfl
  stateMarket := rfl
  revision := rfl
  mode := rfl
  sequence := by decide
  callee := rfl
  topHeight := rfl
  topProgram := rfl
  topData := List.prefix_refl _
  sysvar := by decide +kernel
  payload := by decide
  supplyA := sample_supply.1.trans_lt (by decide)
  supplyB := sample_supply.2.trans_lt (by decide)

theorem execute_iff_quoted_sample : ∃ w' s',
    (handleExecuteEngineGeneratedProbeV0 env execute executeArgs).run (world (live 0)) =
      (.ok (), w') ∧
    GeneratedPlan.loadEngineState w'.ledger engineState = .ok s' ∧ s'.sequence = 1 := by
  obtain ⟨w', hrun⟩ : ∃ w', (handleExecuteEngineGeneratedProbeV0 env execute executeArgs).run
      (world (live 0)) = (.ok (), w') := ⟨_, Exec.run_of_fst (by decide +kernel)⟩
  have hhosted := hosted
  have hkey : data.market.engineState = engineState := rfl
  have hsequence : engineStateBefore.sequence + 1 = 1 := by decide
  rw [← hkey]
  generalize world (live 0) = w at hrun hhosted ⊢
  generalize execute = a at hrun hhosted ⊢
  generalize executeArgs = args at hrun hhosted ⊢
  generalize env = env at hrun hhosted ⊢
  generalize data.market = m at hhosted ⊢
  generalize engineStateBefore = s at hhosted hsequence
  obtain ⟨-, hexecuted, -⟩ := execute_iff_quoted env w a args top _ m s hhosted
  obtain ⟨d, after, call, q, receipt, plan, -, -, -, -, hnext⟩ := hexecuted w' hrun
  exact ⟨w', _, hrun, hnext, hsequence⟩

end Sample

end ProgrammableSolana.Generated
