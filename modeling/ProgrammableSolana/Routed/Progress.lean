import ProgrammableSolana.Core.Progress
import ProgrammableSolana.Routed.ExecuteEffect

/-! How an `execute_callback_authenticated_probe` that passed its checks can still fail: in an
engine call, or for what a receipt says. -/
namespace ProgrammableSolana.Routed

open ProgrammableSolana.Lib ProgrammableSolana.Solana ProgrammableSolana.Core
open ProgrammableSolana.Wire.Routed (timingSingle timingPrepareCommit phaseTransition phasePrepare
  phaseCommit requirePhase)

section Errors

/-- What is wrong with an answer that is no receipt of the engine. -/
def answerErrors : List Error :=
  [.core .missingEngineReceipt, .core .invalidEngineReceiptSetter, .core .invalidEngineReceipt]

/-- What is wrong with a receipt for another request. -/
def bindingErrors : List Error :=
  [.core .engineReceiptPhaseMismatch, .core .engineReceiptIntentMismatch,
    .core .engineReceiptExecutionMismatch]

/-- What is wrong with a primary receipt that is not accepted. -/
def primaryErrors : List Error :=
  bindingErrors ++ [.core .prepareSequenceChanged, .core .transitionSequenceMismatch,
    .core .zeroAmount, .core .outputBelowUserMinimum, .core .insufficientAccountedLiquidity]

/-- What is wrong with a COMMIT receipt that is not accepted. -/
def commitErrors : List Error :=
  bindingErrors ++ [.core .commitOutputMismatch, .core .commitSequenceMismatch]

/-- The errors of an intent that is not authenticated. -/
def intentErrors : List Error :=
  [.core .insufficientUserSourceBalance, .core .insufficientAccountedLiquidity,
    .core .capabilityHashExpectationMismatch, .core .invalidSpendAuthority,
    .core .frozenTokenAccount, .core .tokenAccountNotInitialized,
    .core .nativeTokenAccountUnsupported, .core .invalidTokenMint,
    .core .delegatedAmountMismatch, .core .tokenCloseAuthorityUnsupported,
    .core .invalidCallbackAuthority, .panic] ++ chargeErrors ++ opaqueErrors

theorem validateReceiptBinding_error {receipt : Wire.Routed.EngineReceipt}
    {request : Wire.Routed.EngineRequest} {phase : UInt8} {intentDigest : Hash} {err : Error}
    (h : validateReceiptBinding receipt request phase intentDigest = .error err) :
    err ∈ bindingErrors := by
  simp only [validateReceiptBinding, except_bind_error_iff, require_error_iff] at h
  rcases h with ⟨-, rfl⟩ | ⟨_, -, ⟨-, rfl⟩ | ⟨_, -, -, rfl⟩⟩
  all_goals simp [bindingErrors]

private theorem validatePrimarySequence_error {phase : UInt8} {expected actual : UInt64} {err : Error}
    (hexpected : expected.toNat + 1 < 2 ^ 64)
    (h : validatePrimarySequence phase expected actual = .error err) : err ∈ primaryErrors := by
  unfold validatePrimarySequence at h
  split at h
  · obtain ⟨-, rfl⟩ := require_error_iff.mp h
    simp [primaryErrors]
  · have hnext : checkedAdd expected 1 = some (expected + 1) := if_pos hexpected
    simp only [hnext, except_bind_error_iff, okOr_error_iff, require_error_iff, reduceCtorEq,
      false_and, false_or] at h
    obtain ⟨_, -, -, rfl⟩ := h
    simp [primaryErrors]

private theorem validateAmountOut_error {amountOut minimum liquidity : UInt64} {err : Error}
    (h : validateAmountOut amountOut minimum liquidity = .error err) : err ∈ primaryErrors := by
  simp only [validateAmountOut, except_bind_error_iff, require_error_iff] at h
  rcases h with ⟨-, rfl⟩ | ⟨_, -, ⟨-, rfl⟩ | ⟨_, -, -, rfl⟩⟩
  all_goals simp [primaryErrors]

private theorem mem_intentErrors {err : Error} (h : err ∈ [Error.core .insufficientUserSourceBalance,
    .core .insufficientAccountedLiquidity, .core .capabilityHashExpectationMismatch,
    .core .invalidSpendAuthority, .core .frozenTokenAccount, .core .tokenAccountNotInitialized,
    .core .nativeTokenAccountUnsupported, .core .invalidTokenMint,
    .core .delegatedAmountMismatch, .core .tokenCloseAuthorityUnsupported,
    .core .invalidCallbackAuthority, .panic]) : err ∈ intentErrors :=
  List.mem_append_left _ (List.mem_append_left _ h)

private theorem validateDelegatedSpendSource_error {account : TokenAccount}
    {mint spendAuthority : Pubkey}
    {exactTotalDebit : UInt64} {err : Error}
    (h : validateDelegatedSpendSource account mint spendAuthority exactTotalDebit = .error err) :
    err ∈ intentErrors := by
  simp only [validateDelegatedSpendSource, validateCommonTokenAccount, except_bind_error_iff,
    require_error_iff] at h
  rcases h with (⟨-, rfl⟩ | ⟨_, -, ⟨-, rfl⟩ | ⟨_, -, ⟨-, rfl⟩ | ⟨_, -, -, rfl⟩⟩⟩) |
    ⟨_, -, ⟨-, rfl⟩ | ⟨_, -, ⟨-, rfl⟩ | ⟨_, -, -, rfl⟩⟩⟩
  all_goals exact mem_intentErrors (by simp)

private theorem validateCallbackAccount_error {L : Ledger} {callback : AccountInfo}
    {expected : Pubkey} {err : Error}
    (h : validateCallbackAccount L callback expected = .error err) : err ∈ intentErrors := by
  simp only [validateCallbackAccount, except_bind_error_iff, require_error_iff] at h
  rcases h with ⟨-, rfl⟩ | ⟨_, -, -, rfl⟩
  all_goals exact mem_intentErrors (by simp)

end Errors

section

variable [Crypto]

/-- What the first checks establish for the calls and the settlement to go through. -/
structure Ready (env : Env config) (L : Ledger) (a : ExecuteCallbackAuthenticatedProbeV0)
    (d : EnvelopeData) (args : ExecuteCallbackAuthenticatedProbeV0Args) (phase : UInt8) :
    Prop where
  accounts : AccountsOk L a d
  terms : TermsOk env args phase
  writable : ∀ info ∈ a.toEnvelope.tokenInfos, info.isWritable = true
  destination : d.userDestinationB.state = .initialized
  engineProgram : (L a.engineProgram.key).executable = true
  engineState : (L a.engineState.key).executable = false
  stateWritable : a.engineState.isWritable = true
  primaryCallback : (L a.primaryCallback.key).executable = false
  commitCallback : (L a.commitCallback.key).executable = false

theorem ready_of_ok {env : Env config} {L : Ledger} {a : ExecuteCallbackAuthenticatedProbeV0}
    {d : EnvelopeData} {args : ExecuteCallbackAuthenticatedProbeV0Args} {phase : UInt8}
    (hload : loadExecute L a = .ok d) (h : validateAccounts env L a d args = .ok phase) :
    Ready env L a d args phase := by
  obtain ⟨haccounts, hterms⟩ := validateAccounts_ok hload h
  unfold loadExecute at hload
  simp only [except_bind_ok_iff, except_pure_ok_iff] at hload
  obtain ⟨_, -, _, hconstrain, rfl⟩ := hload
  simp only [validateAccounts, validateExecutionEnvelope, except_bind_ok_iff, require_ok_iff] at h
  obtain ⟨_, -, _, -, _, -, _, -, _, -, _, ⟨_, hbind, _, -, _, hstate, _, -, _, -, _, hcallbacks,
    hprofile⟩, -⟩ := h
  obtain ⟨hprogram, hcode⟩ := engine_of_ok hbind
  exact ⟨haccounts, hterms, writable_of_ok hconstrain, destination_of_ok hprofile, hprogram, hcode,
    hstate, hcallbacks.1, hcallbacks.2⟩

variable {env : Env config} {L L₁ : Ledger} {a : ExecuteCallbackAuthenticatedProbeV0}
  {d : EnvelopeData} {args : ExecuteCallbackAuthenticatedProbeV0Args} {phase : UInt8}
  {i : AuthenticatedIntent}

theorem timingMode_of_phase (h : TermsOk env args phase) :
    Wire.Routed.requireTimingMode args.timingMode = .ok () := by
  unfold Wire.Routed.requireTimingMode
  rw [require_ok_iff]
  rcases primaryPhase_ok h.phase with ⟨ht, -⟩ | ⟨ht, -⟩
  · exact .inl ht
  · exact .inr ht

private theorem capabilityDescriptors_hashed {ds : List Wire.CapabilityDescriptor}
    (engineProgram : Pubkey)
    (engineState : AccountInfo) (mode : CapabilityMode) (h : ds.length ≤ Wire.maxOpaqueAccounts) :
    ∃ capability, Wire.Routed.computeCapabilityHash engineProgram
      (capabilityDescriptors L engineState ds mode) = .ok capability := by
  refine ⟨_, Wire.capabilityHash_eq ?_⟩
  unfold capabilityDescriptors Wire.Routed.maxCapabilityDescriptors
    Wire.Routed.capabilityPrefixAccounts
  rw [List.length_cons, List.length_map]
  omega

private theorem canonicalCallback_error {intentDigest : Hash} {err : Error}
    (h : canonicalCallback a intentDigest phase = .error err) : err ∈ intentErrors := by
  simp only [canonicalCallback, except_bind_error_iff, okOr_error_iff, except_pure_ne_error,
    and_false, exists_false, or_false] at h
  rw [← h.2]
  exact mem_intentErrors (by simp)

private theorem canonicalSpendAuthority_error {userInput : Pubkey} {intentDigest : Hash} {err : Error}
    (h : canonicalSpendAuthority userInput intentDigest = .error err) : err ∈ intentErrors := by
  rw [← (okOr_error_iff.mp h).2]
  exact mem_intentErrors (by simp)

theorem authenticateIntent_error (hr : Ready env L a d args phase) {err : Error}
    (h : authenticateIntent L a d args phase = .error err) : err ∈ intentErrors := by
  simp only [authenticateIntent, except_bind_error_iff, except_pure_ne_error, and_false,
    exists_false, or_false] at h
  rcases h with h | ⟨charge, -, h | ⟨_, -, h | ⟨_, -, h | ⟨ds, hds, h⟩⟩⟩⟩
  · exact List.mem_append_left _ (List.mem_append_right _ (chargeInput_error h))
  · rw [← (require_error_iff.mp h).2]
    exact mem_intentErrors (by simp)
  · rw [← (require_error_iff.mp h).2]
    exact mem_intentErrors (by simp)
  · exact List.mem_append_right _ (validateOpaqueCapabilities_error h)
  have hlen : ds.length ≤ Wire.maxOpaqueAccounts := by
    obtain ⟨hlen, hadmitted⟩ := validateOpaqueCapabilities_ok hds
    exact hadmitted.length_eq.symm.le.trans hlen
  obtain ⟨capability, hcapability⟩ :=
    capabilityDescriptors_hashed (L := L) a.engineProgram.key a.engineState .authorized hlen
  have hpayload : Wire.Routed.computePayloadHash args.opaquePayload = .ok _ :=
    Wire.payloadHash_eq hr.terms.payload
  replace h := except_error_past (liftWire_ok_iff.mpr hcapability) h
  rcases h with h | ⟨_, -, h⟩
  · rw [← (require_error_iff.mp h).2]
    exact mem_intentErrors (by simp)
  replace h := except_error_past (liftWire_ok_iff.mpr hpayload) h
  obtain ⟨digest, hdigest⟩ := Wire.Routed.computeIntentDigest_succeeds
    (b := boundIntent a d args charge.protocolFee capability _) (timingMode_of_phase hr.terms)
  replace h := except_error_past (liftWire_ok_iff.mpr hdigest) h
  rcases h with h | ⟨⟨spend, bump⟩, -, h | ⟨_, -, h | ⟨_, -, h | ⟨primary, -, h |
    ⟨commit, -, h | ⟨_, -, h⟩⟩⟩⟩⟩⟩
  · exact canonicalSpendAuthority_error h
  · rw [← (require_error_iff.mp h).2]
    exact mem_intentErrors (by simp)
  · exact validateDelegatedSpendSource_error h
  · exact canonicalCallback_error h
  · exact canonicalCallback_error h
  · exact validateCallbackAccount_error h
  · exact validateCallbackAccount_error h

omit [Crypto] in
theorem accountViews_congr (h : SameOwnership L L₁) (infos : List AccountInfo) :
    infos.map (accountView L₁) = infos.map (accountView L) := by
  refine List.map_congr_left fun info _ => ?_
  unfold accountView
  rw [h.owner, h.executable]

omit [Crypto] in
theorem capabilityDescriptors_congr (h : SameOwnership L L₁) (engineState : AccountInfo)
    (ds : List Wire.CapabilityDescriptor) (mode : CapabilityMode) :
    capabilityDescriptors L₁ engineState ds mode = capabilityDescriptors L engineState ds mode := by
  unfold capabilityDescriptors
  rw [h.owner]

omit [Crypto] in
theorem phaseDescriptors_weaken {ds : List Wire.CapabilityDescriptor}
    (hsigner : ∀ d ∈ ds, d.isSigner = false) {mode : CapabilityMode}
    {d' : Wire.CapabilityDescriptor} (h : d' ∈ phaseDescriptors ds mode) :
    ∃ d ∈ ds, Weakens d' d := by
  unfold phaseDescriptors at h
  obtain ⟨d, hd, rfl⟩ := List.mem_map.mp h
  refine ⟨d, hd, ?_⟩
  split
  · exact .refl d
  · exact ⟨rfl, rfl, rfl, by simp, (hsigner d hd).symm⟩

/-- The request of a phase can be made and encoded: in COMMIT the capability hash is the authorized
one still, since no account changed hands. -/
theorem phaseRequest_succeeds (hr : Ready env L a d args phase) (hi : IntentOk L a d args phase i)
    (hsame : SameOwnership L L₁) {callPhase : UInt8} {mode : CapabilityMode} {context : Hash}
    (preSequence : UInt64) (hphase : requirePhase callPhase = .ok ())
    (hcontext : context ≠ Bytes.zero 32 ↔ callPhase = phaseCommit)
    (hmode : callPhase = phaseCommit → mode = .authorized) :
    ∃ capability request data, phaseRequest L₁ a d args i callPhase mode context preSequence =
        .ok (capability, request) ∧ Wire.Routed.encodeEngineInstruction request = .ok data := by
  have hlen : i.opaqueDescriptors.length ≤ Wire.maxOpaqueAccounts :=
    hi.admitted.length_eq.symm.le.trans hi.count
  obtain ⟨capability, hcapability⟩ :=
    capabilityDescriptors_hashed (L := L) a.engineProgram.key a.engineState mode hlen
  rw [← capabilityDescriptors_congr hsame] at hcapability
  have hcount := opaqueCount_eq (hi.count.trans_lt (by decide))
  obtain ⟨binding, hbinding, hvalid⟩ := Wire.Routed.executionBinding_new_succeeds hphase hcontext
    (opaqueCount_ok hcount ▸ hi.count) hr.terms.payload
  obtain ⟨request, data, hrequest, hdata⟩ := Wire.Routed.engineRequest_new_succeeds hvalid
  have hbuild : buildEngineRequest a d args i.protocolFee i.intentDigest callPhase context
      preSequence i.authorizedCapabilityHash capability = .ok request := by
    simp only [buildEngineRequest, except_bind_ok_iff, liftWire_ok_iff]
    exact ⟨_, hcount, binding, hbinding, hrequest⟩
  refine ⟨capability, request, data, ?_, hdata⟩
  simp only [phaseRequest, except_bind_ok_iff, liftWire_ok_iff]
  refine ⟨capability, hcapability, ?_⟩
  split
  · next hcommit =>
    rw [hmode hcommit, capabilityDescriptors_congr hsame, hi.capability, Except.ok.injEq] at hcapability
    simp only [except_bind_ok_iff, require_ok_iff, except_pure_ok_iff]
    exact ⟨(), hcapability.symm, request, hbuild, rfl⟩
  · simp only [except_bind_ok_iff, except_pure_ok_iff]
    exact ⟨request, hbuild, rfl⟩

theorem phaseInstruction_succeeds (hi : IntentOk L a d args phase i) (hsame : SameOwnership L L₁)
    (mode : CapabilityMode) {request : Wire.Routed.EngineRequest} {data : List UInt8}
    (hdata : Wire.Routed.encodeEngineInstruction request = .ok data) (callback : AccountInfo) :
    ∃ infos, phaseInstruction L₁ a (phaseDescriptors i.opaqueDescriptors mode) request callback =
      .ok ({ programId := a.engineProgram.key
             accounts := phaseMetas a callback (phaseDescriptors i.opaqueDescriptors mode)
               request.binding.phase
             data }, infos) := by
  have hsigner : ∀ d ∈ i.opaqueDescriptors, d.isSigner = false := by
    intro d hd
    obtain ⟨_, -, hadmitted⟩ := exists_of_forall₂_mem hi.admitted hd
    exact hadmitted.isSigner
  have hweak : ∀ d' ∈ phaseDescriptors i.opaqueDescriptors mode,
      ∃ d ∈ i.opaqueDescriptors, Weakens d' d := fun d' hd' => phaseDescriptors_weaken hsigner hd'
  obtain ⟨infos, hinfos, -⟩ := normalizedInfos_succeed hi.admitted hweak
  rw [← accountViews_congr hsame] at hinfos
  have hlen : (phaseDescriptors i.opaqueDescriptors mode).length = a.remainingAccounts.length := by
    unfold phaseDescriptors
    rw [List.length_map]
    exact hi.admitted.length_eq.symm
  simp only [phaseInstruction, except_bind_ok_iff, require_ok_iff, liftWire_ok_iff,
    except_pure_ok_iff]
  exact ⟨_, (), hlen, data, hdata, infos, hinfos, rfl⟩

theorem callbackSigner_of_canonical {intentDigest : Hash} {callback : CallbackPda}
    (h : canonicalCallback a intentDigest phase = .ok callback) :
    signerOfSeeds config (a.callbackSeeds intentDigest phase ++ [[callback.bump]]) =
      .ok callback.key := by
  simp only [canonicalCallback, except_bind_ok_iff, okOr_ok_iff, except_pure_ok_iff,
    Prod.exists] at h
  obtain ⟨key, bump, hfind, rfl⟩ := h
  exact okOr_ok_iff.mpr (createProgramAddress_of_find hfind)

/-- The receipt in the return data of a phase. -/
def readReceipt (a : ExecuteCallbackAuthenticatedProbeV0)
    (returned : Option (Pubkey × List UInt8)) : Result Wire.Routed.EngineReceipt := do
  let data ← takeReceipt a.toEnvelope returned
  liftWire (.core .invalidEngineReceipt) (Wire.Routed.decodeReceipt data)

/-- How an engine phase fails in a world: the call of its instruction does, or what that returned is
no receipt of the engine. -/
inductive PhaseFault (env : Env config) (a : ExecuteCallbackAuthenticatedProbeV0)
    (phaseOpaqueDescriptors : List Wire.CapabilityDescriptor) (request : Wire.Routed.EngineRequest)
    (callback : AccountInfo) (callbackBump : UInt8) (w : Core.World) : Error → Core.World → Prop where
  | call {instruction : Instruction} {infos : List AccountInfo} {callbackSigner : Pubkey}
      {r : RuntimeError} {w' : Core.World}
      (hinstruction : phaseInstruction w.ledger a phaseOpaqueDescriptors request callback =
        .ok (instruction, infos))
      (hsigner : signerOfSeeds config (a.callbackSeeds request.binding.intentDigest
        request.binding.phase ++ [[callbackBump]]) = .ok callbackSigner)
      (h : (invokeSigned ID env.callee a.infos instruction infos [callbackSigner]).run w =
        (.error r, w')) :
      PhaseFault env a phaseOpaqueDescriptors request callback callbackBump w (.runtime r) w'
  | answer {instruction : Instruction} {infos : List AccountInfo} {callbackSigner : Pubkey}
      {err : Error} {w' : Core.World}
      (hinstruction : phaseInstruction w.ledger a phaseOpaqueDescriptors request callback =
        .ok (instruction, infos))
      (hsigner : signerOfSeeds config (a.callbackSeeds request.binding.intentDigest
        request.binding.phase ++ [[callbackBump]]) = .ok callbackSigner)
      (h : (invokeSigned ID env.callee a.infos instruction infos [callbackSigner]).run w =
        (.ok (), w'))
      (hread : readReceipt a w'.returnData = .error err) (hmem : err ∈ answerErrors) :
      PhaseFault env a phaseOpaqueDescriptors request callback callbackBump w err w'

omit [Crypto] in
theorem readReceipt_error {returned : Option (Pubkey × List UInt8)} {err : Error}
    (h : readReceipt a returned = .error err) : err ∈ answerErrors := by
  simp only [readReceipt, takeReceipt, liftWire, except_bind_error_iff, require_error_iff, okOr_error_iff,
    mapError_error_iff, except_pure_ne_error, and_false, exists_false, or_false] at h
  rcases h with (⟨-, rfl⟩ | ⟨_, -, -, rfl⟩) | ⟨_, -, fault, hdecode, rfl⟩
  · simp [answerErrors]
  · simp [answerErrors]
  · cases fault with
    | codec c => simp [answerErrors]
    | outOfBounds => exact absurd hdecode Wire.Routed.decodeReceipt_ne_outOfBounds

/-- An engine phase of an authenticated intent fails only through the engine. -/
theorem invokeEnginePhase_ends {w : Core.World} (hi : IntentOk L a d args phase i)
    (hsame : SameOwnership L w.ledger) {mode : CapabilityMode}
    {request : Wire.Routed.EngineRequest} {data : List UInt8}
    (hdata : Wire.Routed.encodeEngineInstruction request = .ok data)
    (hintent : request.binding.intentDigest = i.intentDigest) {callback : AccountInfo}
    {pda : CallbackPda} (hpda : canonicalCallback a i.intentDigest request.binding.phase = .ok pda) :
    (invokeEnginePhase env a (phaseDescriptors i.opaqueDescriptors mode) request callback
      pda.bump).Ends w (PhaseFault env a (phaseDescriptors i.opaqueDescriptors mode) request callback
        pda.bump w) fun _ _ => True := by
  obtain ⟨infos, hix⟩ := phaseInstruction_succeeds hi hsame mode hdata callback
  have hsigner := callbackSigner_of_canonical hpda
  rw [← hintent] at hsigner
  unfold invokeEnginePhase
  refine Exec.ends_get_bind (Exec.ends_ofExcept_bind hix (Exec.ends_ofExcept_bind hsigner ?_))
  refine Exec.ends_mapError_bind_of (fun r w₁ h => .call hix hsigner h) fun _ w₁ h => ?_
  refine Exec.ends_get_bind (Exec.ends_ofExcept_of (fun err herr => ?_) fun _ _ => trivial)
  have hread : readReceipt a w₁.returnData = .error err := herr
  exact .answer hix hsigner h hread (readReceipt_error hread)

variable {w w₁ : Core.World}

/-- The terms an output is settled under. -/
def settleTerms (args : ExecuteCallbackAuthenticatedProbeV0Args) (i : AuthenticatedIntent)
    (amountOut : UInt64) : SettleTerms :=
  ⟨args.amountIn, i.protocolFee, i.totalInputDebit, amountOut⟩

theorem settleable (hr : Ready env w.ledger a d args phase)
    (hi : IntentOk w.ledger a d args phase i) (hA : totalBalance w.ledger a.mintA.key < 2 ^ 64)
    (hB : totalBalance w.ledger a.mintB.key < 2 ^ 64)
    (hconf : Confined ID (a.engineWritable i.opaqueDescriptors) w.ledger w₁.ledger)
    {amountOut : UInt64} (hout : amountOut ≤ d.domain.accountedB) :
    Settleable config a.infos w₁.ledger a.toEnvelope d a.spendAuthority.key [i.spendAuthority]
      (settleTerms args i amountOut) := by
  have ha := hr.accounts
  have hcaller : ∀ info ∈ a.toEnvelope.tokenInfos, info ∈ a.infos := by
    intro info hinfo
    simp only [Envelope.tokenInfos, List.mem_cons, List.not_mem_nil, or_false] at hinfo
    unfold ExecuteCallbackAuthenticatedProbeV0.infos
    rcases hinfo with rfl | rfl | rfl | rfl | rfl <;> simp
  exact ha.bound.settleable ha.profiled ha.tokenKeys_nodup hr.writable hcaller
    ⟨hi.source.state, hi.source.mint⟩ hr.destination hA hB hconf (hi.engine_foreign ha)
    (.inr (by simp [hi.spendKey])) hi.total hi.held hout

theorem acceptSettlement_succeeds (hr : Ready env w.ledger a d args phase) {amountOut : UInt64}
    {t : SettleTerms} (ht : t = settleTerms args i amountOut) {caller : List AccountInfo}
    {authority : Pubkey} {signers : List Pubkey}
    (hs : Settleable config caller w₁.ledger a.toEnvelope d authority signers t)
    (hout : amountOut ≤ d.domain.accountedB) :
    ∃ s, acceptSettlement d args i amountOut = .ok s ∧ s.terms args = t := by
  subst ht
  have hcoversA := UInt64.le_iff_toNat_le.mp hr.accounts.profiled.coversA
  have hcoversFee := UInt64.le_iff_toNat_le.mp hr.accounts.profiled.coversFee
  have hfitsA := hs.fitsVaultA
  have hfitsFee := hs.fitsFeeVault
  simp only [settleTerms] at hfitsA hfitsFee
  have hA : checkedAdd d.domain.accountedA args.amountIn = some _ := if_pos (by omega)
  have hB : checkedSub d.domain.accountedB amountOut = some _ := if_pos hout
  have hF : checkedAdd d.feeLedger.accountedFeeA i.protocolFee = some _ := if_pos (by omega)
  simp only [acceptSettlement, except_bind_ok_iff, okOr_ok_iff, except_pure_ok_iff]
  exact ⟨_, ⟨_, hA, _, hB, _, hF, rfl⟩, rfl⟩

private theorem spendSigner_of_canonical (hi : IntentOk L a d args phase i) :
    signerOfSeeds config [spendAuthoritySeedV0, a.userSourceA.key.toList, i.intentDigest.toList,
      [i.spendBump]] = .ok i.spendAuthority := by
  have hfind := okOr_ok_iff.mp hi.spendAuthority
  exact okOr_ok_iff.mpr (createProgramAddress_of_find hfind)

/-- The settlement of an accepted output succeeds, and uses the spend authority up. -/
theorem settleAuthenticatedIntent_succeeds (hi : IntentOk L a d args phase i)
    (hfee : d.market.feeBps = protocolFeeBpsV0) (hin : 0 < args.amountIn) {s : AcceptedSettlement}
    {amountOut : UInt64} (ht : s.terms args = settleTerms args i amountOut)
    (hs : Settleable config a.infos w₁.ledger a.toEnvelope d a.spendAuthority.key
      [i.spendAuthority] (settleTerms args i amountOut)) :
    ∃ after w₂, (settleAuthenticatedIntent a d args i s).run w₁ = (.ok after, w₂) ∧
      SameOwnership w₁.ledger w₂.ledger := by
  have hpos : 0 < (settleTerms args i amountOut).protocolFee.toNat := by
    unfold settleTerms
    rw [hi.fee, hfee]
    exact ceilFee_pos (UInt64.lt_iff_toNat_lt.mp hin) (by decide)
  obtain ⟨x₂, hpays, hd, hamount⟩ := Pays.of_delegate (t := settleTerms args i amountOut) hi.total
    hi.held (hi.source.delegate.trans (congrArg some hi.spendKey.symm)) hi.source.delegatedAmount
    hpos
  obtain ⟨after, w₂, hsettle, hafter, hleft⟩ := settle_succeeds hs hpays
  have hcleared : require (after.userSourceA.delegate = none ∧
      after.userSourceA.delegatedAmount = 0) (.core .spendDelegateNotCleared) =
        (.ok () : Result Unit) := require_ok_iff.mpr ⟨hafter.trans hd, hleft.trans hamount⟩
  refine ⟨after, w₂, ?_, settle_sameOwnership hsettle⟩
  simp only [settleAuthenticatedIntent, Exec.bind_ok_iff, Exec.ofExcept_ok_iff, ht]
  exact ⟨_, w₁, ⟨spendSigner_of_canonical hi, rfl⟩, after, w₂, hsettle, (), w₂, ⟨hcleared, rfl⟩, rfl⟩

private theorem acceptPrimary_error {p : PreparedExecution} (hr : Ready env w.ledger a p.d args p.phase)
    (hs : ∀ amountOut, amountOut ≤ p.d.domain.accountedB →
      Settleable config a.infos w₁.ledger a.toEnvelope p.d a.spendAuthority.key
        [p.intent.spendAuthority] (settleTerms args p.intent amountOut))
    (hexpected : args.expectedEngineSequence.toNat + 1 < 2 ^ 64)
    {receipt : Wire.Routed.EngineReceipt} {data : List UInt8}
    (hread : Wire.Routed.encodeReceipt receipt = .ok data) {err : Error}
    (h : acceptPrimary args p receipt = .error err) : err ∈ primaryErrors := by
  simp only [acceptPrimary, except_bind_error_iff, except_pure_ne_error, and_false, exists_false,
    or_false] at h
  rcases h with h | ⟨_, -, h | ⟨_, -, h | ⟨_, hamount, h⟩⟩⟩
  · exact List.mem_append_left _ (validateReceiptBinding_error h)
  · exact validatePrimarySequence_error hexpected h
  · exact validateAmountOut_error h
  have hout := (validateAmountOut_ok_iff.mp hamount).2.2
  obtain ⟨digest, hdigest⟩ := Wire.Routed.computeReceiptDigest_succeeds hread
  replace h := except_error_past (liftWire_ok_iff.mpr hdigest) h
  obtain ⟨s, hsettlement, -⟩ := acceptSettlement_succeeds hr rfl (hs _ hout) hout
  rw [hsettlement] at h
  cases h

/-- What is wrong with a COMMIT receipt that is not accepted. -/
inductive CommitRejected (i : AuthenticatedIntent) (primaryReceipt : Wire.Routed.EngineReceipt)
    (request : Wire.Routed.EngineRequest) (receipt : Wire.Routed.EngineReceipt) : Error → Prop where
  | binding {err : Error}
      (h : validateReceiptBinding receipt request phaseCommit i.intentDigest = .error err) :
      CommitRejected i primaryReceipt request receipt err
  | output (h : receipt.amountOut ≠ primaryReceipt.amountOut) :
      CommitRejected i primaryReceipt request receipt (.core .commitOutputMismatch)
  | sequence (h : receipt.stateSequence.toNat ≠ primaryReceipt.stateSequence.toNat + 1) :
      CommitRejected i primaryReceipt request receipt (.core .commitSequenceMismatch)

/-- How the second engine call fails in the world it is made in: the phase does, or its receipt is not
accepted. -/
inductive CommitFault (env : Env config) (a : ExecuteCallbackAuthenticatedProbeV0) (d : EnvelopeData)
    (args : ExecuteCallbackAuthenticatedProbeV0Args) (i : AuthenticatedIntent)
    (primaryReceipt : Wire.Routed.EngineReceipt) (settlementDigest : Hash) (w : Core.World) :
    Error → Core.World → Prop where
  | phase {capability : Hash} {request : Wire.Routed.EngineRequest} {err : Error} {w' : Core.World}
      (hrequest : phaseRequest w.ledger a d args i phaseCommit .authorized settlementDigest
        primaryReceipt.stateSequence = .ok (capability, request))
      (h : PhaseFault env a (phaseDescriptors i.opaqueDescriptors .authorized) request
        a.commitCallback i.commitCallback.bump w err w') :
      CommitFault env a d args i primaryReceipt settlementDigest w err w'
  | receipt {capability : Hash} {request : Wire.Routed.EngineRequest}
      {receipt : Wire.Routed.EngineReceipt} {err : Error} {w' : Core.World}
      (hrequest : phaseRequest w.ledger a d args i phaseCommit .authorized settlementDigest
        primaryReceipt.stateSequence = .ok (capability, request))
      (hanswer : (invokeEnginePhase env a (phaseDescriptors i.opaqueDescriptors .authorized) request
        a.commitCallback i.commitCallback.bump).run w = (.ok receipt, w'))
      (h : CommitRejected i primaryReceipt request receipt err) (hmem : err ∈ commitErrors) :
      CommitFault env a d args i primaryReceipt settlementDigest w err w'

omit [Crypto] in
theorem CommitRejected.mem {primaryReceipt receipt : Wire.Routed.EngineReceipt}
    {request : Wire.Routed.EngineRequest} {err : Error}
    (h : CommitRejected i primaryReceipt request receipt err) : err ∈ commitErrors := by
  cases h with
  | binding h => exact List.mem_append_left _ (validateReceiptBinding_error h)
  | output h => simp [commitErrors]
  | sequence h => simp [commitErrors]

/-- A COMMIT that is reached fails only through the engine. -/
theorem commit_ends (hr : Ready env L a d args phase) (hi : IntentOk L a d args phase i)
    (hsame : SameOwnership L w.ledger) {primaryReceipt : Wire.Routed.EngineReceipt}
    (hnext : primaryReceipt.stateSequence.toNat + 1 < 2 ^ 64) {settlementDigest : Hash}
    (hdigest : settlementDigest ≠ Bytes.zero 32) :
    (commit env a d args i primaryReceipt settlementDigest).Ends w
      (CommitFault env a d args i primaryReceipt settlementDigest w) fun _ _ => True := by
  have hcontext : settlementDigest ≠ Bytes.zero 32 ↔ phaseCommit = phaseCommit :=
    iff_of_true hdigest rfl
  obtain ⟨capability, request, data, hrequest, hdata⟩ := phaseRequest_succeeds hr hi hsame
    primaryReceipt.stateSequence (by decide) hcontext fun _ => rfl
  have hok := (phaseRequest_ok hrequest).1
  have hpda := hi.commitCallback
  rw [← hok.phase] at hpda
  have hcall : (invokeEnginePhase env a (phaseDescriptors i.opaqueDescriptors .authorized) request
      a.commitCallback i.commitCallback.bump).Ends w (PhaseFault env a
        (phaseDescriptors i.opaqueDescriptors .authorized) request a.commitCallback
        i.commitCallback.bump w) _ :=
    (invokeEnginePhase_ends hi hsame hdata hok.intentDigest hpda).with_run
  unfold commit
  refine Exec.ends_get_bind (Exec.ends_ofExcept_bind hrequest ?_)
  rw [capabilityDescriptors_drop]
  refine Exec.Ends.bind (hcall.mono (fun _ _ h => .phase hrequest h) fun _ _ h => h) ?_
  rintro receipt w₁ ⟨-, hrun⟩
  obtain ⟨c, hcalled⟩ := invokeEnginePhase_ok hrun
  obtain ⟨data', -, hread⟩ := hcalled.returned
  have hreject : ∀ err, CommitRejected i primaryReceipt request receipt err →
      CommitFault env a d args i primaryReceipt settlementDigest w err w₁ := by
    intro err h
    exact .receipt hrequest hrun h h.mem
  refine Exec.ends_ofExcept_bind_of (fun err h => ?_) fun _ _ => ?_
  · exact hreject err (.binding h)
  refine Exec.ends_ofExcept_bind_of (fun err h => ?_) fun _ _ => ?_
  · obtain ⟨hne, rfl⟩ := require_error_iff.mp h
    exact hreject _ (.output hne)
  have hadd : checkedAdd primaryReceipt.stateSequence 1 = some _ := if_pos hnext
  refine Exec.ends_ofExcept_bind (okOr_ok_iff.mpr hadd) ?_
  refine Exec.ends_ofExcept_bind_of (fun err h => ?_) fun _ _ => ?_
  · obtain ⟨hne, rfl⟩ := require_error_iff.mp h
    apply hreject _ (.sequence _)
    intro hsucc
    apply hne
    apply UInt64.toNat_inj.mp
    rw [hsucc, checkedAdd_eq_some.mp hadd]
    rfl
  obtain ⟨receiptDigest, hreceiptDigest⟩ := Wire.Routed.computeReceiptDigest_succeeds hread
  exact Exec.ends_ofExcept_bind (liftWire_ok_iff.mpr hreceiptDigest) trivial

/-- An execution up to the digest of its settlement. -/
def reachSettlement (env : Env config) (a : ExecuteCallbackAuthenticatedProbeV0)
    (args : ExecuteCallbackAuthenticatedProbeV0Args) : Handler Hash := do
  let w ← .get
  let p ← .ofExcept (prepareExecution env w.ledger a args)
  let receipt ← invokeEnginePhase env a ((capabilityDescriptors w.ledger a.engineState
    p.intent.opaqueDescriptors (primaryMode p.phase)).drop 1) p.primaryRequest a.primaryCallback
    p.intent.primaryCallback.bump
  let (receiptDigest, settlement) ← .ofExcept (acceptPrimary args p receipt)
  let after ← settleAuthenticatedIntent a p.d args p.intent settlement
  .ofExcept (liftWire .panic (Wire.Routed.computeSettlementDigest
    (settlementBinding after args settlement p.intent.intentDigest p.primaryRequest.executionDigest
      receiptDigest)))

/-- An execution was prepared and its first engine call left a receipt. -/
structure PrimaryAnswered (env : Env config) (w : Core.World)
    (a : ExecuteCallbackAuthenticatedProbeV0) (args : ExecuteCallbackAuthenticatedProbeV0Args)
    (p : PreparedExecution) (receipt : Wire.Routed.EngineReceipt) (w₁ : Core.World) : Prop where
  prepared : prepareExecution env w.ledger a args = .ok p
  answered : (invokeEnginePhase env a (phaseDescriptors p.intent.opaqueDescriptors
    (primaryMode p.phase)) p.primaryRequest a.primaryCallback p.intent.primaryCallback.bump).run w =
      (.ok receipt, w₁)

/-- That receipt was accepted and its settlement carried out. -/
structure SettlementReached (env : Env config) (w : Core.World)
    (a : ExecuteCallbackAuthenticatedProbeV0) (args : ExecuteCallbackAuthenticatedProbeV0Args)
    (p : PreparedExecution) (receipt : Wire.Routed.EngineReceipt) (settlementDigest : Hash)
    (w₂ : Core.World) : Prop where
  settled : ∃ w₁ receiptDigest s after, PrimaryAnswered env w a args p receipt w₁ ∧
    acceptPrimary args p receipt = .ok (receiptDigest, s) ∧
    (settleAuthenticatedIntent a p.d args p.intent s).run w₁ = (.ok after, w₂) ∧
    Wire.Routed.computeSettlementDigest (settlementBinding after args s p.intent.intentDigest
      p.primaryRequest.executionDigest receiptDigest) = .ok settlementDigest

/-- How an execution whose accounts passed their checks fails: its intent is rejected, the first
engine phase fails or its receipt is not accepted, or the second engine call fails where the settlement
left off. -/
inductive Fault (env : Env config) (w : Core.World) (a : ExecuteCallbackAuthenticatedProbeV0)
    (d : EnvelopeData) (args : ExecuteCallbackAuthenticatedProbeV0Args) (phase : UInt8) :
    Error → Core.World → Prop where
  | intent {err : Error} (h : authenticateIntent w.ledger a d args phase = .error err)
      (hwire : err ≠ .core .invalidWireEncoding)
      (hprivilege : err ≠ .core .opaqueNormalizedPrivilegeUnavailable) :
      Fault env w a d args phase err w
  | primary {p : PreparedExecution} {err : Error} {w' : Core.World}
      (hp : prepareExecution env w.ledger a args = .ok p)
      (h : PhaseFault env a (phaseDescriptors p.intent.opaqueDescriptors (primaryMode p.phase))
        p.primaryRequest a.primaryCallback p.intent.primaryCallback.bump w err w') :
      Fault env w a d args phase err w'
  | primaryReceipt {p : PreparedExecution} {receipt : Wire.Routed.EngineReceipt} {err : Error}
      {w' : Core.World} (hp : PrimaryAnswered env w a args p receipt w')
      (h : acceptPrimary args p receipt = .error err) (hmem : err ∈ primaryErrors) :
      Fault env w a d args phase err w'
  | commit {p : PreparedExecution} {receipt : Wire.Routed.EngineReceipt} {settlementDigest : Hash}
      {w₂ : Core.World} {err : Error} {w' : Core.World}
      (htiming : args.timingMode = timingPrepareCommit)
      (hreached : SettlementReached env w a args p receipt settlementDigest w₂)
      (h : CommitFault env a p.d args p.intent receipt settlementDigest w₂ err w') :
      Fault env w a d args phase err w'

private theorem primaryContext (h : TermsOk env args phase) :
    requirePhase phase = .ok () ∧ ((Bytes.zero 32 : Hash) ≠ Bytes.zero 32 ↔ phase = phaseCommit) := by
  unfold requirePhase
  rw [require_ok_iff]
  rcases primaryPhase_ok h.phase with ⟨-, rfl⟩ | ⟨-, rfl⟩
  · exact ⟨.inl rfl, by decide⟩
  · exact ⟨.inr (.inl rfl), by decide⟩

theorem prepareExecution_succeeds (hload : loadExecute L a = .ok d)
    (hvalid : validateAccounts env L a d args = .ok phase)
    (hintent : authenticateIntent L a d args phase = .ok i) :
    ∃ capability request data, prepareExecution env L a args =
        .ok ⟨d, phase, i, capability, request⟩ ∧
      RequestOk a d args i phase (Bytes.zero 32) args.expectedEngineSequence capability request ∧
      Wire.Routed.encodeEngineInstruction request = .ok data := by
  have hr := ready_of_ok hload hvalid
  obtain ⟨hphase, hcontext⟩ := primaryContext hr.terms
  have hmode : phase = phaseCommit → primaryMode phase = .authorized := by
    rintro rfl
    decide
  obtain ⟨capability, request, data, hrequest, hdata⟩ := phaseRequest_succeeds hr
    (authenticateIntent_ok hintent) (.refl L) args.expectedEngineSequence hphase hcontext hmode
  refine ⟨capability, request, data, ?_, (phaseRequest_ok hrequest).1, hdata⟩
  simp only [prepareExecution, except_bind_ok_iff, except_pure_ok_iff]
  exact ⟨d, hload, phase, hvalid, i, hintent, _, hrequest, rfl⟩

theorem prepareExecution_error (hload : loadExecute L a = .ok d)
    (hvalid : validateAccounts env L a d args = .ok phase) {err : Error}
    (h : prepareExecution env L a args = .error err) :
    authenticateIntent L a d args phase = .error err := by
  rcases hintent : authenticateIntent L a d args phase with err' | i
  · simp only [prepareExecution, except_bind_error_iff] at h
    replace h := except_error_past hload h
    replace h := except_error_past hvalid h
    rcases h with h | ⟨i, hi, -⟩
    · rw [← hintent, h]
    · rw [hintent] at hi
      cases hi
  · obtain ⟨_, _, _, hprepare, -⟩ := prepareExecution_succeeds hload hvalid hintent
    rw [hprepare] at h
    cases h

omit [Crypto] in
theorem recordExecution_succeeds {p : PreparedExecution} {receiptDigest settlementDigest : Hash}
    {receipt : Wire.Routed.EngineReceipt} {s : AcceptedSettlement} {after : EnvelopeData}
    {outcome : CommitOutcome} (hcount : a.remainingAccounts.length ≤ Wire.maxOpaqueAccounts) :
    ∃ w', (recordExecution a args p receipt receiptDigest s after settlementDigest outcome).run w =
      (.ok (), w') := by
  have hfits : (if a.remainingAccounts.length < 2 ^ 8 then
      some (UInt8.ofNat a.remainingAccounts.length) else none) = some _ :=
    if_pos (hcount.trans_lt (by decide))
  simp only [recordExecution, writeAccounted, emit, Exec.bind_ok_iff, Exec.modify_ok_iff,
    Exec.ofExcept_ok_iff]
  exact ⟨_, (), _, rfl, _, _, ⟨okOr_ok_iff.mpr hfits, rfl⟩, rfl⟩

/-- The sequence a primary receipt was accepted with has a successor, if the expected one has. -/
theorem sequence_fits (h : TermsOk env args phase) {actual : UInt64}
    (hsequence : SequenceOk phase args.expectedEngineSequence actual)
    (htiming : args.timingMode = timingPrepareCommit)
    (hexpected : args.expectedEngineSequence.toNat + 1 < 2 ^ 64) : actual.toNat + 1 < 2 ^ 64 := by
  rcases primaryPhase_ok h.phase with ⟨ht, -⟩ | ⟨-, rfl⟩
  · rw [ht] at htiming
    exact absurd htiming (by decide)
  · rw [hsequence, if_pos rfl]
    exact hexpected

private theorem commitPhase_ends (hr : Ready env L a d args phase) (hi : IntentOk L a d args phase i)
    {primaryReceipt : Wire.Routed.EngineReceipt}
    (hsame : args.timingMode = timingPrepareCommit → SameOwnership L w.ledger)
    (hnext : args.timingMode = timingPrepareCommit →
      primaryReceipt.stateSequence.toNat + 1 < 2 ^ 64)
    {settlementDigest : Hash} (hdigest : settlementDigest ≠ Bytes.zero 32) :
    (commitPhase env a d args i primaryReceipt settlementDigest).Ends w
      (fun err w' => args.timingMode = timingPrepareCommit ∧
        CommitFault env a d args i primaryReceipt settlementDigest w err w') fun _ _ => True := by
  unfold commitPhase
  split
  · next ht =>
    exact (commit_ends hr hi (hsame ht) (hnext ht) hdigest).mono (fun _ _ h => ⟨ht, h⟩)
      fun _ _ h => h
  · trivial

/-- What follows an accepted primary receipt fails only in COMMIT. -/
theorem settlement_ends {p : PreparedExecution} (hr : Ready env L a p.d args p.phase)
    (hi : IntentOk L a p.d args p.phase p.intent)
    (hsame : args.timingMode = timingPrepareCommit → SameOwnership L w₁.ledger)
    (hexpected : args.expectedEngineSequence.toNat + 1 < 2 ^ 64)
    {receipt : Wire.Routed.EngineReceipt} {receiptDigest : Hash} {s : AcceptedSettlement}
    (hanswered : PrimaryAnswered env w a args p receipt w₁)
    (haccept : acceptPrimary args p receipt = .ok (receiptDigest, s))
    (hs : Settleable config a.infos w₁.ledger a.toEnvelope p.d a.spendAuthority.key
      [p.intent.spendAuthority] (settleTerms args p.intent receipt.amountOut))
    (hreach : ∀ after w₂ digest, (settleAuthenticatedIntent a p.d args p.intent s).run w₁ =
        (.ok after, w₂) → Wire.Routed.computeSettlementDigest (settlementBinding after args s
          p.intent.intentDigest p.primaryRequest.executionDigest receiptDigest) = .ok digest →
      digest ≠ Bytes.zero 32) :
    (do
      let after ← settleAuthenticatedIntent a p.d args p.intent s
      let settlementDigest ← .ofExcept (liftWire .panic (Wire.Routed.computeSettlementDigest
        (settlementBinding after args s p.intent.intentDigest p.primaryRequest.executionDigest
          receiptDigest)))
      let outcome ← commitPhase env a p.d args p.intent receipt settlementDigest
      recordExecution a args p receipt receiptDigest s after settlementDigest outcome).Ends w₁
      (fun err w' => args.timingMode = timingPrepareCommit ∧
        ∃ digest w₂, SettlementReached env w a args p receipt digest w₂ ∧
          CommitFault env a p.d args p.intent receipt digest w₂ err w') fun _ _ => True := by
  obtain ⟨-, hsequence, -, -, hsettlement⟩ := acceptPrimary_ok haccept
  have ht : s.terms args = settleTerms args p.intent receipt.amountOut := by
    unfold AcceptedSettlement.terms settleTerms
    rw [hsettlement.protocolFee, hsettlement.totalInputDebit, hsettlement.amountOut]
  obtain ⟨after, w₂, hsettle, hsame₂⟩ := settleAuthenticatedIntent_succeeds hi
    hr.accounts.bound.feeBps hr.terms.amountIn ht hs
  obtain ⟨digest, hdigest⟩ := Wire.Routed.computeSettlementDigest_succeeds (settlementBinding after
    args s p.intent.intentDigest p.primaryRequest.executionDigest receiptDigest)
  have hreached : SettlementReached env w a args p receipt digest w₂ :=
    ⟨w₁, receiptDigest, s, after, hanswered, haccept, hsettle, hdigest⟩
  have hcommit : (commitPhase env a p.d args p.intent receipt digest).Ends w₂ _ _ :=
    commitPhase_ends hr hi (fun htiming => (hsame htiming).trans hsame₂)
      (fun htiming => sequence_fits hr.terms hsequence htiming hexpected)
      (hreach after w₂ digest hsettle hdigest)
  refine Exec.ends_bind_iff.mpr (Exec.ends_of_ok hsettle ?_)
  refine Exec.ends_ofExcept_bind (liftWire_ok_iff.mpr hdigest) ?_
  refine Exec.Ends.bind (hcommit.mono ?_ fun _ _ h => h) fun outcome w₃ _ => ?_
  · rintro err w' ⟨htiming, h⟩
    exact ⟨htiming, digest, w₂, hreached, h⟩
  · obtain ⟨w', hrecord⟩ := recordExecution_succeeds hi.count
    exact Exec.ends_of_ok hrecord trivial

theorem prepareExecution_parts (hload : loadExecute L a = .ok d)
    (hvalid : validateAccounts env L a d args = .ok phase) {p : PreparedExecution}
    (hp : prepareExecution env L a args = .ok p) :
    p.d = d ∧ p.phase = phase ∧ IntentOk L a d args phase p.intent ∧
      RequestOk a d args p.intent phase (Bytes.zero 32) args.expectedEngineSequence
        p.primaryCapabilityHash p.primaryRequest ∧
      ∃ data, Wire.Routed.encodeEngineInstruction p.primaryRequest = .ok data := by
  have hintent : ∃ i, authenticateIntent L a d args phase = .ok i := by
    simp only [prepareExecution, except_bind_ok_iff] at hp
    obtain ⟨d', hload', phase', hvalid', i, hintent, -⟩ := hp
    rw [hload, Except.ok.injEq] at hload'
    subst hload'
    rw [hvalid, Except.ok.injEq] at hvalid'
    subst hvalid'
    exact ⟨i, hintent⟩
  obtain ⟨i, hintent⟩ := hintent
  obtain ⟨capability, request, data, hprepare, hok, hdata⟩ :=
    prepareExecution_succeeds hload hvalid hintent
  obtain rfl := Except.ok.inj (hprepare.symm.trans hp)
  exact ⟨rfl, rfl, authenticateIntent_ok hintent, hok, data, hdata⟩

/-- Once the engine is called, only the engine can make the execution fail. -/
theorem execute_ends (hload : loadExecute w.ledger a = .ok d)
    (hvalid : validateAccounts env w.ledger a d args = .ok phase)
    (hA : totalBalance w.ledger a.mintA.key < 2 ^ 64)
    (hB : totalBalance w.ledger a.mintB.key < 2 ^ 64)
    (hexpected : args.expectedEngineSequence.toNat + 1 < 2 ^ 64)
    (hdigest : ((reachSettlement env a args).run w).1 ≠ .ok (Bytes.zero 32)) :
    (handleExecuteCallbackAuthenticatedProbeV0 env a args).Ends w (Fault env w a d args phase)
      fun _ _ => True := by
  have hr := ready_of_ok hload hvalid
  unfold handleExecuteCallbackAuthenticatedProbeV0
  refine Exec.ends_get_bind (Exec.ends_ofExcept_bind_of (fun err h => ?_) fun p hp => ?_)
  · have hintent := prepareExecution_error hload hvalid h
    have hmem := authenticateIntent_error hr hintent
    refine .intent hintent (fun heq => ?_) (fun heq => ?_)
    · exact absurd (heq ▸ hmem) (by decide)
    · exact absurd (heq ▸ hmem) (by decide)
  obtain ⟨rfl, rfl, hi, hok, data, hdata⟩ := prepareExecution_parts hload hvalid hp
  have hpda := hi.primaryCallback
  rw [← hok.phase] at hpda
  have hcall : (invokeEnginePhase env a (phaseDescriptors p.intent.opaqueDescriptors
      (primaryMode p.phase)) p.primaryRequest a.primaryCallback p.intent.primaryCallback.bump).Ends w
        (PhaseFault env a (phaseDescriptors p.intent.opaqueDescriptors (primaryMode p.phase))
          p.primaryRequest a.primaryCallback p.intent.primaryCallback.bump w) _ :=
    (invokeEnginePhase_ends hi (.refl _) hdata hok.intentDigest hpda).with_run
  rw [capabilityDescriptors_drop]
  refine Exec.Ends.bind (hcall.mono (fun _ _ h => .primary hp h) fun _ _ h => h) ?_
  rintro receipt w₁ ⟨-, hrun⟩
  have hanswered : PrimaryAnswered env w a args p receipt w₁ := ⟨hp, hrun⟩
  obtain ⟨c, hcalled⟩ := invokeEnginePhase_ok hrun
  obtain ⟨data', -, hread⟩ := hcalled.returned
  have hs : ∀ amountOut, amountOut ≤ p.d.domain.accountedB → Settleable config a.infos w₁.ledger
      a.toEnvelope p.d a.spendAuthority.key [p.intent.spendAuthority]
        (settleTerms args p.intent amountOut) :=
    fun _ hout => settleable hr hi hA hB hcalled.confined_engine hout
  refine Exec.ends_ofExcept_bind_of (fun err h => ?_) fun accepted haccept => ?_
  · exact .primaryReceipt hanswered h (acceptPrimary_error hr hs hexpected hread h)
  obtain ⟨receiptDigest, s⟩ := accepted
  have hout := (acceptPrimary_ok haccept).2.2.1.2.2
  have hsame : args.timingMode = timingPrepareCommit → SameOwnership w.ledger w₁.ledger := by
    intro htiming
    rcases primaryPhase_ok hr.terms.phase with ⟨ht, -⟩ | ⟨-, hphase⟩
    · rw [ht] at htiming
      exact absurd htiming (by decide)
    · rw [hphase, primaryMode_prepare] at hcalled
      rw [hcalled.prepare_unchanged (hok.phase.trans hphase)]
      exact .refl _
  refine (settlement_ends hr hi hsame hexpected hanswered haccept (hs _ hout) ?_).mono ?_ fun _ _ h => h
  · intro after w₂ digest hsettle hd hzero
    have hreach : (reachSettlement env a args).run w = (.ok digest, w₂) := by
      simp only [reachSettlement, Exec.bind_ok_iff, Exec.get_ok_iff, Exec.ofExcept_ok_iff,
        capabilityDescriptors_drop, liftWire_ok_iff]
      exact ⟨w, w, ⟨rfl, rfl⟩, p, w, ⟨hp, rfl⟩, receipt, w₁, hrun, _, w₁, ⟨haccept, rfl⟩, after, w₂,
        hsettle, hd, rfl⟩
    rw [hreach] at hdigest
    exact hdigest (congrArg Except.ok hzero)
  · rintro err w' ⟨htiming, digest, w₂, hreached, h⟩
    exact .commit htiming hreached h

end

end ProgrammableSolana.Routed
