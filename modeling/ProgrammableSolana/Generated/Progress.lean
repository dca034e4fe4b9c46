import ProgrammableSolana.Core.Progress
import ProgrammableSolana.Generated.ExecuteEffect
import ProgrammableSolana.Wire.GeneratedCodec

/-! How an `execute_engine_generated_probe` that passed its checks can still fail: in the engine
call, or for what the receipt says. -/
namespace ProgrammableSolana.Generated

open ProgrammableSolana.Lib ProgrammableSolana.Solana ProgrammableSolana.Core

/-- What is wrong with a receipt that is not accepted. -/
def receiptErrors : List Error :=
  [.core .missingEngineReceipt, .core .invalidEngineReceiptSetter, .core .invalidEngineReceipt,
    .core .engineReceiptRequestMismatch, .core .zeroAmount, .core .outputBelowUserMinimum,
    .core .insufficientAccountedLiquidity]

theorem acceptReceipt_error {a : ExecuteEngineGeneratedProbeV0} {d : EnvelopeData}
    {args : ExecuteEngineGeneratedProbeV0Args} {requestHash : Hash}
    {returned : Option (Pubkey × List UInt8)} {err : Error}
    (h : acceptReceipt a d args requestHash returned = .error err) : err ∈ receiptErrors := by
  simp only [acceptReceipt, takeReceipt, liftWire, except_bind_error_iff, require_error_iff,
    okOr_error_iff, mapError_error_iff, except_pure_ne_error, and_false, exists_false,
    or_false] at h
  rcases h with (⟨-, rfl⟩ | ⟨_, -, -, rfl⟩) | ⟨_, -, ⟨fault, hdecode, rfl⟩ | ⟨_, -, h⟩⟩
  · simp [receiptErrors]
  · simp [receiptErrors]
  · cases fault with
    | codec c => simp [receiptErrors]
    | outOfBounds => exact absurd hdecode Wire.Generated.decodeReceipt_ne_outOfBounds
  · rcases h with ⟨-, rfl⟩ | ⟨_, -, ⟨-, rfl⟩ | ⟨_, -, ⟨-, rfl⟩ | ⟨_, -, -, rfl⟩⟩⟩
    all_goals simp [receiptErrors]

section

variable [Crypto]

/-- What the checks establish for the call and the settlement to go through. -/
structure Ready (env : Env config) (L : Ledger) (a : ExecuteEngineGeneratedProbeV0)
    (d : EnvelopeData) (args : ExecuteEngineGeneratedProbeV0Args) : Prop where
  accounts : AccountsOk L a d
  topLevel : env.stackHeight = transactionLevelStackHeight
  payload : args.opaquePayload.length ≤ Wire.maxOpaquePayloadLen
  writable : ∀ info ∈ a.toEnvelope.tokenInfos, info.isWritable = true
  destination : d.userDestinationB.state = .initialized
  engineProgram : (L a.engineProgram.key).executable = true
  engineState : (L a.engineState.key).executable = false
  stateWritable : a.engineState.isWritable = true
  sysvar : a.instructionsSysvar.key = instructionsSysvarId

theorem ready_of_ok {env : Env config} {L : Ledger} {a : ExecuteEngineGeneratedProbeV0}
    {d : EnvelopeData} {args : ExecuteEngineGeneratedProbeV0Args} {u : Unit}
    (hload : loadExecute L a = .ok d) (h : validateAccounts env L a d args = .ok u) :
    Ready env L a d args := by
  have haccounts := validateAccounts_ok hload h
  obtain ⟨-, -, hconstrain⟩ := loadExecute_ok hload
  simp only [loadExecute, constraintAddress, except_bind_ok_iff, require_ok_iff] at hload
  obtain ⟨_, -, _, -, _, -, _, hsysvar, -⟩ := hload
  simp only [validateAccounts, validateOpaquePayload, except_bind_ok_iff, require_ok_iff] at h
  obtain ⟨_, htop, _, hpayload, _, -, _, hbind, _, -, _, -, _, hstate, _, -, hprofile⟩ := h
  obtain ⟨hprogram, hcode⟩ := engine_of_ok hbind
  exact ⟨haccounts, htop, hpayload, writable_of_ok hconstrain, destination_of_ok hprofile, hprogram,
    hcode, hstate, hsysvar⟩

variable {env : Env config} {w w₁ : Core.World} {a : ExecuteEngineGeneratedProbeV0}
  {d : EnvelopeData} {args : ExecuteEngineGeneratedProbeV0Args} {call : GeneratedCall}
  {receipt : Wire.Generated.EngineReceipt}

theorem acceptPlan_succeeds (hc : CallOk env w.ledger a d args call)
    (hout : receipt.amountOut ≤ d.domain.accountedB) : ∃ plan, acceptPlan d call receipt = .ok plan := by
  have hcount : call.opaqueAccountCount.toNat < 2 ^ 8 := by
    have hfew := hc.few
    unfold Wire.maxOpaqueAccounts at hfew
    rw [hc.count]
    omega
  simp only [acceptPlan, except_bind_ok_iff, okOr_ok_iff, except_pure_ok_iff]
  exact ⟨_, d.domain.accountedB - receipt.amountOut, if_pos hout, _, if_pos hcount, rfl⟩

theorem settleEngineGeneratedProbe_succeeds (hr : Ready env w.ledger a d args)
    (hc : CallOk env w.ledger a d args call)
    (hA : totalBalance w.ledger a.mintA.key < 2 ^ 64)
    (hB : totalBalance w.ledger a.mintB.key < 2 ^ 64)
    (hconf : Confined ID (call.engineInstruction.privileges ID).writable w.ledger w₁.ledger)
    {plan : AcceptedEnginePlan} (hplan : acceptPlan d call receipt = .ok plan)
    (hout : receipt.amountOut ≤ d.domain.accountedB) :
    ∃ w', (settleEngineGeneratedProbe a d args plan).run w₁ = (.ok (), w') := by
  obtain ⟨hamount, hfee, htotal, -⟩ := acceptPlan_ok hplan
  have ha := hr.accounts
  have hsum : (plan.terms args).totalInputDebit.toNat =
      (plan.terms args).amountIn.toNat + (plan.terms args).protocolFee.toNat := by
    unfold AcceptedEnginePlan.terms
    rw [htotal, hfee]
    exact hc.total
  have hheld : (plan.terms args).totalInputDebit ≤ d.userSourceA.amount := by
    unfold AcceptedEnginePlan.terms
    rw [htotal]
    exact hc.held
  have hpaid : (plan.terms args).amountOut ≤ d.domain.accountedB := by
    unfold AcceptedEnginePlan.terms
    rw [hamount]
    exact hout
  have hcaller : ∀ info ∈ a.toEnvelope.tokenInfos, info ∈ a.infos := by
    intro info hinfo
    simp only [Envelope.tokenInfos, List.mem_cons, List.not_mem_nil, or_false] at hinfo
    unfold ExecuteEngineGeneratedProbeV0.infos
    rcases hinfo with rfl | rfl | rfl | rfl | rfl <;> simp
  have huser : ∃ info ∈ a.infos, info.key = a.user.key ∧ info.isSigner = true :=
    ⟨a.user, by simp [ExecuteEngineGeneratedProbeV0.infos], rfl, ha.signed⟩
  have hsettleable : Settleable config a.infos w₁.ledger a.toEnvelope d a.user.key []
      (plan.terms args) :=
    ha.bound.settleable ha.profiled ha.tokenKeys_nodup hr.writable hcaller
      ⟨ha.source.state, ha.source.mint⟩ hr.destination hA hB hconf (hc.engine_foreign ha)
      (.inl huser) hsum hheld hpaid
  obtain ⟨after, w₂, hsettle, -⟩ :=
    settle_succeeds hsettleable (Pays.of_owner hsum hheld ha.source.delegate ha.source.owner)
  unfold settleEngineGeneratedProbe
  rw [Exec.run_bind_of_ok hsettle]
  exact ⟨_, rfl⟩

/-- The errors of rejected terms. -/
def termErrors : List Error :=
  [.core .zeroAmount, .core .requestExpired, .core .insufficientUserSourceBalance,
    .core .insufficientAccountedLiquidity, .core .arithmeticOverflow,
    .core .capabilityHashExpectationMismatch] ++ chargeErrors ++ opaqueErrors

omit [Crypto] in
private theorem mem_termErrors {err : Error} (h : err ∈ [Error.core .zeroAmount, .core .requestExpired,
    .core .insufficientUserSourceBalance, .core .insufficientAccountedLiquidity,
    .core .arithmeticOverflow, .core .capabilityHashExpectationMismatch]) : err ∈ termErrors :=
  List.mem_append_left _ (List.mem_append_left _ h)

/-- Terms that are not rejected make a call that can be encoded and forwarded. -/
theorem planExecution_error (hr : Ready env w.ledger a d args) {err : Error}
    (h : planExecution env w.ledger a d args = .error err) : err ∈ termErrors := by
  simp only [planExecution, except_bind_error_iff, require_error_iff, okOr_error_iff,
    except_pure_ne_error, and_false, exists_false, or_false] at h
  rcases h with ⟨-, rfl⟩ | ⟨_, -, ⟨-, rfl⟩ | ⟨_, -, h | ⟨charge, -, ⟨-, rfl⟩ | ⟨_, -, ⟨-, rfl⟩ |
    ⟨_, -, ⟨-, rfl⟩ | ⟨_, -, ⟨-, rfl⟩ | ⟨_, -, h | ⟨ds, hds, h⟩⟩⟩⟩⟩⟩⟩⟩
  · exact mem_termErrors (by simp)
  · exact mem_termErrors (by simp)
  · exact List.mem_append_left _ (List.mem_append_right _ (chargeInput_error h))
  · exact mem_termErrors (by simp)
  · exact mem_termErrors (by simp)
  · exact mem_termErrors (by simp)
  · exact mem_termErrors (by simp)
  · exact List.mem_append_right _ (validateOpaqueCapabilities_error h)
  · obtain ⟨hlen, hadmitted⟩ := validateOpaqueCapabilities_ok hds
    rw [List.forall₂_map_left_iff] at hadmitted
    rw [List.length_map] at hlen
    obtain ⟨infos, hinfos, -⟩ := normalizedInfos_succeed hadmitted fun d hd => ⟨d, hd, .refl d⟩
    have hdescriptors : (prefixDescriptors w.ledger a ++ ds).length ≤
        Wire.Generated.maxCapabilityDescriptors := by
      have hlen' := hadmitted.length_eq
      simp only [prefixDescriptors, List.length_append, List.length_cons, List.length_nil,
        Wire.Generated.maxCapabilityDescriptors, Wire.Generated.capabilityPrefixAccounts]
      omega
    have hcapability : Wire.Generated.computeCapabilityHash a.engineProgram.key
        (prefixDescriptors w.ledger a ++ ds) = .ok _ := Wire.capabilityHash_eq hdescriptors
    have hpayload : Wire.Generated.computePayloadHash args.opaquePayload = .ok _ :=
      Wire.payloadHash_eq hr.payload
    replace h := except_error_past (liftWire_ok_iff.mpr hcapability) h
    rcases h with ⟨-, rfl⟩ | ⟨_, -, h⟩
    · exact mem_termErrors (by simp)
    replace h := except_error_past (liftWire_ok_iff.mpr hpayload) h
    replace h := except_error_past (liftWire_ok_iff.mpr (Wire.Generated.computeRequestHash_eq _)) h
    have hcount := opaqueCount_eq (hlen.trans_lt (by decide))
    replace h := except_error_past hcount h
    obtain ⟨request, data, hrequest, hdata⟩ :=
      Wire.Generated.engineRequest_new_succeeds (opaqueCount_ok hcount ▸ hlen) hr.payload
    replace h := except_error_past (liftWire_ok_iff.mpr hrequest) h
    replace h := except_error_past (liftWire_ok_iff.mpr hdata) h
    rw [hinfos] at h
    cases h

/-- How an execution whose accounts passed their checks fails: its terms are rejected, the engine
call fails, or it returns something that is no acceptable receipt. -/
inductive Fault (env : Env config) (w : Core.World) (a : ExecuteEngineGeneratedProbeV0)
    (d : EnvelopeData) (args : ExecuteEngineGeneratedProbeV0Args) : Error → Core.World → Prop where
  | terms {err : Error} (h : planExecution env w.ledger a d args = .error err)
      (hwire : err ≠ .core .invalidWireEncoding)
      (hprivilege : err ≠ .core .opaqueNormalizedPrivilegeUnavailable) : Fault env w a d args err w
  | call {call : GeneratedCall} {r : RuntimeError} {w₁ : Core.World}
      (hcall : planExecution env w.ledger a d args = .ok call)
      (h : (invokeSigned ID env.callee a.infos call.engineInstruction call.engineInfos []).run w =
        (.error r, w₁)) : Fault env w a d args (.runtime r) w₁
  | receipt {call : GeneratedCall} {err : Error} {w₁ : Core.World}
      (hcall : planExecution env w.ledger a d args = .ok call)
      (h : (invokeSigned ID env.callee a.infos call.engineInstruction call.engineInfos []).run w =
        (.ok (), w₁))
      (hreceipt : acceptReceipt a d args call.requestHash w₁.returnData = .error err)
      (hmem : err ∈ receiptErrors) : Fault env w a d args err w₁

/-- Once the engine is called, only the engine can make the execution fail. -/
theorem execute_ends (hload : loadExecute w.ledger a = .ok d)
    (hvalid : validateAccounts env w.ledger a d args = .ok ())
    (hA : totalBalance w.ledger a.mintA.key < 2 ^ 64)
    (hB : totalBalance w.ledger a.mintB.key < 2 ^ 64) :
    (handleExecuteEngineGeneratedProbeV0 env a args).Ends w (Fault env w a d args)
      fun _ _ => True := by
  have hr := ready_of_ok hload hvalid
  unfold handleExecuteEngineGeneratedProbeV0
  refine Exec.ends_get_bind (Exec.ends_ofExcept_bind hload (Exec.ends_ofExcept_bind hvalid ?_))
  refine Exec.ends_ofExcept_bind_of (fun err hplan => ?_) fun call hcall => ?_
  · have hmem := planExecution_error hr hplan
    refine .terms hplan (fun heq => ?_) (fun heq => ?_)
    · exact absurd (heq ▸ hmem) (by decide)
    · exact absurd (heq ▸ hmem) (by decide)
  refine Exec.ends_mapError_bind_of (fun r w₁ h => .call hcall h) fun _ w₁ h => ?_
  have hc := planExecution_ok hcall
  have hconf := invokeSigned_confined config.ID_ne_token config.ID_ne_system h
  refine Exec.ends_get_bind (Exec.ends_ofExcept_bind_of (fun err hreceipt => ?_) fun receipt hok => ?_)
  · exact .receipt hcall h hreceipt (acceptReceipt_error hreceipt)
  have hout := (acceptReceipt_ok hok).2.2.2.2
  obtain ⟨plan, hplan⟩ := acceptPlan_succeeds hc hout
  obtain ⟨w', hsettle⟩ := settleEngineGeneratedProbe_succeeds hr hc hA hB hconf hplan hout
  exact Exec.ends_ofExcept_bind hplan (Exec.ends_of_ok hsettle trivial)

end

end ProgrammableSolana.Generated
