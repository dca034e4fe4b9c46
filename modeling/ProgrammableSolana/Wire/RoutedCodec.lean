import ProgrammableSolana.Wire.Routed

/-! The routed wire format is exact: a string is accepted for a value exactly when it is the
encoding of that value. -/
namespace ProgrammableSolana.Wire.Routed

open ProgrammableSolana.Lib ProgrammableSolana.Solana

def intentCodec : Codec CodecError IntentBinding :=
  (versionCodec.pair <| (Codec.u8.guard requireTimingMode).pair <| (Codec.bytes 32).pair <|
    (Codec.bytes 32).pair <| (Codec.bytes 32).pair <| (Codec.bytes 32).pair <|
    (Codec.bytes 32).pair <| (Codec.bytes 32).pair <| (Codec.bytes 32).pair <|
    (Codec.bytes 32).pair <| (Codec.bytes 32).pair <| (Codec.bytes 32).pair <|
    (Codec.bytes 32).pair <| (Codec.bytes 32).pair <| (Codec.bytes 32).pair <|
    (Codec.bytes 32).pair <| (Codec.bytes 32).pair <| Codec.u64.pair <| Codec.u64.pair <|
    Codec.u64.pair <| Codec.u64.pair <| Codec.u64.pair <| Codec.u64.pair <| Codec.u64.pair <|
    Codec.u64.pair <| (Codec.bytes 32).pair <| (Codec.bytes 32).pair (Codec.bytes 32)).map
    (fun (_, timingMode, coreProgram, market, domain, engineProgram, engineState, userAuthority,
        userInput, userOutput, mintIn, mintOut, domainInputVault, domainOutputVault,
        protocolFeeVault, feeLedger, tokenProgram, engineRevision, feePolicyRevision, amountIn,
        protocolFee, maxTotalInputDebit, minOutputCredit, maxProtocolFee, expiresAtSlot,
        authorizationNonce, authorizedCapabilityHash, payloadHash) =>
      { timingMode, coreProgram, market, domain, engineProgram, engineState, userAuthority,
        userInput, userOutput, mintIn, mintOut, domainInputVault, domainOutputVault,
        protocolFeeVault, feeLedger, tokenProgram, engineRevision, feePolicyRevision, amountIn,
        protocolFee, maxTotalInputDebit, minOutputCredit, maxProtocolFee, expiresAtSlot,
        authorizationNonce, authorizedCapabilityHash, payloadHash })
    (fun b => ((), b.timingMode, b.coreProgram, b.market, b.domain, b.engineProgram, b.engineState,
      b.userAuthority, b.userInput, b.userOutput, b.mintIn, b.mintOut, b.domainInputVault,
      b.domainOutputVault, b.protocolFeeVault, b.feeLedger, b.tokenProgram, b.engineRevision,
      b.feePolicyRevision, b.amountIn, b.protocolFee, b.maxTotalInputDebit, b.minOutputCredit,
      b.maxProtocolFee, b.expiresAtSlot, b.authorizationNonce, b.authorizedCapabilityHash,
      b.payloadHash))
    (fun _ => rfl) (fun _ => rfl)

theorem readIntentBinding_eq (data : List UInt8) :
    readIntentBinding data = intentCodec.read data := by
  simp only [readIntentBinding, intentCodec, Codec.map, Codec.pair, Codec.literal, Codec.guard,
    Codec.bytes, Codec.u64, Codec.u8, versionCodec, bind_assoc, pure_bind, readU64]

private theorem intentCodec_valid_iff (b : IntentBinding) :
    intentCodec.Valid b ↔ requireTimingMode b.timingMode = .ok () := by
  simp only [intentCodec, versionCodec_valid, Codec.map_valid_iff, Codec.pair_valid_iff,
    Codec.guard_valid_iff, Codec.bytes_valid, Codec.u8_valid,
    Codec.u64_valid, true_and, and_true]

theorem encodeIntentBinding_eq (b : IntentBinding) : encodeIntentBinding b =
    ((requireTimingMode b.timingMode).mapError .codec >>= fun _ => .ok (intentCodec.enc b)) := by
  rw [encodeIntentBinding, fill_enc intentCodec (n := intentBindingLen) (a := b) rfl]
  simp only [List.flatten_cons, List.flatten_nil, List.append_nil]
  rfl

theorem encodeIntentBinding_ok_iff {b : IntentBinding} {data : List UInt8} :
    encodeIntentBinding b = .ok data ↔ intentCodec.Valid b ∧ data = intentCodec.enc b := by
  rw [encodeIntentBinding_eq, mapError_bind_ok_iff, intentCodec_valid_iff]

/-- An intent can be read off its encoding. -/
theorem encodeIntentBinding_injective {b b' : IntentBinding} {data : List UInt8}
    (h : encodeIntentBinding b = .ok data) (h' : encodeIntentBinding b' = .ok data) : b = b' := by
  obtain ⟨hv, hd⟩ := encodeIntentBinding_ok_iff.mp h
  obtain ⟨hv', hd'⟩ := encodeIntentBinding_ok_iff.mp h'
  exact intentCodec.enc_injective hv hv' (hd.symm.trans hd')

def receiptCodec : Codec CodecError EngineReceipt :=
  ((magicCodec receiptMagic).pair <| versionCodec.pair <| (Codec.u8.guard requirePhase).pair <|
    (Codec.bytes 32).pair <| (Codec.bytes 32).pair <| Codec.u64.pair Codec.u64).map
    (fun (_, _, phase, intentDigest, executionDigest, amountOut, stateSequence) =>
      { phase, intentDigest, executionDigest, amountOut, stateSequence })
    (fun r => ((), (), r.phase, r.intentDigest, r.executionDigest, r.amountOut, r.stateSequence))
    (fun _ => rfl) (fun _ => rfl)

theorem readReceipt_eq (data : List UInt8) : readReceipt data = receiptCodec.read data := by
  simp only [readReceipt, receiptCodec, Codec.map, Codec.pair, Codec.literal, Codec.guard,
    Codec.bytes, Codec.u64, Codec.u8, magicCodec, versionCodec, bind_assoc, pure_bind, readU64]

theorem receiptCodec_valid_iff (r : EngineReceipt) :
    receiptCodec.Valid r ↔ requirePhase r.phase = .ok () := by
  simp only [receiptCodec, magicCodec_valid, versionCodec_valid, Codec.map_valid_iff, Codec.pair_valid_iff,
    Codec.guard_valid_iff, Codec.bytes_valid, Codec.u8_valid,
    Codec.u64_valid, true_and, and_true]

theorem encodeReceipt_eq (r : EngineReceipt) : encodeReceipt r =
    ((requirePhase r.phase).mapError .codec >>= fun _ => .ok (receiptCodec.enc r)) := by
  rw [encodeReceipt, fill_enc receiptCodec (n := engineReceiptLen) (a := r) rfl]
  simp only [List.flatten_cons, List.flatten_nil, List.append_nil]
  rfl

theorem encodeReceipt_ok_iff {r : EngineReceipt} {data : List UInt8} :
    encodeReceipt r = .ok data ↔ receiptCodec.Valid r ∧ data = receiptCodec.enc r := by
  rw [encodeReceipt_eq, mapError_bind_ok_iff, receiptCodec_valid_iff]

theorem decodeReceipt_ok_iff {data : List UInt8} {r : EngineReceipt} :
    decodeReceipt data = .ok r ↔ encodeReceipt r = .ok data := by
  rw [decodeReceipt, readReceipt_eq, requireLength,
    receiptCodec.require_decode_eq_ok_iff (n := engineReceiptLen) rfl, encodeReceipt_ok_iff]

theorem decodeReceipt_ne_outOfBounds {data : List UInt8} :
    decodeReceipt data ≠ .error .outOfBounds := by
  rw [decodeReceipt, readReceipt_eq, requireLength]
  exact receiptCodec.require_decode_ne_outOfBounds rfl

/-- The fields of an execution binding, before they are validated together. -/
def executionCodec : Codec CodecError ExecutionBinding :=
  (versionCodec.pair <| Codec.u8.pair <| (Codec.bytes 32).pair <| (Codec.bytes 32).pair <|
    (Codec.bytes 32).pair <| (Codec.bytes 32).pair <| Codec.u64.pair <| Codec.u64.pair <|
    Codec.u64.pair <| Codec.u64.pair <| Codec.u64.pair <| Codec.u64.pair <| Codec.u64.pair <|
    (Codec.bytes 32).pair <| (Codec.bytes 32).pair <| Codec.u16.pair <| Codec.u16.pair
    (Codec.bytes maxOpaquePayloadLen)).map
    (fun (_, phase, intentDigest, phaseContextDigest, market, domain, engineRevision, amountIn,
        protocolFee, accountedInputBefore, accountedOutputBefore, accountedFeeBefore, preSequence,
        authorizedCapabilityHash, phaseCapabilityHash, opaqueAccountCount, payloadLen, payload) =>
      { phase, intentDigest, phaseContextDigest, market, domain, engineRevision, amountIn,
        protocolFee, accountedInputBefore, accountedOutputBefore, accountedFeeBefore, preSequence,
        authorizedCapabilityHash, phaseCapabilityHash, opaqueAccountCount, payloadLen, payload })
    (fun b => ((), b.phase, b.intentDigest, b.phaseContextDigest, b.market, b.domain,
      b.engineRevision, b.amountIn, b.protocolFee, b.accountedInputBefore, b.accountedOutputBefore,
      b.accountedFeeBefore, b.preSequence, b.authorizedCapabilityHash, b.phaseCapabilityHash,
      b.opaqueAccountCount, b.payloadLen, b.payload))
    (fun _ => rfl) (fun _ => rfl)

theorem readExecutionBinding_eq (data : List UInt8) :
    readExecutionBinding data = executionCodec.read data := by
  simp only [readExecutionBinding, executionCodec, Codec.map, Codec.pair, Codec.literal,
    Codec.bytes, Codec.u64, Codec.u16, Codec.u8, versionCodec, bind_assoc, pure_bind, readU64,
    readU16]

theorem executionCodec_valid (b : ExecutionBinding) : executionCodec.Valid b := by
  simp only [executionCodec, versionCodec_valid, Codec.map_valid_iff, Codec.pair_valid_iff,
    Codec.bytes_valid, Codec.u8_valid, Codec.u16_valid, Codec.u64_valid,
    and_self]

theorem encodeExecutionBinding_eq (b : ExecutionBinding) : encodeExecutionBinding b =
    ((validateExecutionBinding b).mapError .codec >>= fun _ => .ok (executionCodec.enc b)) := by
  rw [encodeExecutionBinding, fill_enc executionCodec (n := executionBindingLen) (a := b) rfl]
  simp only [List.flatten_cons, List.flatten_nil, List.append_nil]
  rfl

theorem encodeExecutionBinding_ok_iff {b : ExecutionBinding} {data : List UInt8} :
    encodeExecutionBinding b = .ok data ↔
      validateExecutionBinding b = .ok () ∧ data = executionCodec.enc b := by
  rw [encodeExecutionBinding_eq, mapError_bind_ok_iff]

/-- The execution codec is exact. -/
theorem decodeExecutionBinding_ok_iff {data : List UInt8} {b : ExecutionBinding} :
    decodeExecutionBinding data = .ok b ↔ encodeExecutionBinding b = .ok data := by
  have hread : ∀ b', (require (data.length = executionBindingLen)
      (.codec (.invalidLength executionBindingLen data.length)) >>= fun _ =>
        (readExecutionBinding data).decode) = .ok b' ↔ data = executionCodec.enc b' := by
    intro b'
    rw [readExecutionBinding_eq,
      executionCodec.require_decode_eq_ok_iff (n := executionBindingLen) rfl]
    simp [executionCodec_valid]
  rw [decodeExecutionBinding, requireLength, ← bind_assoc]
  simp only [except_bind_ok_iff (x := _ >>= _), hread, except_bind_ok_iff, mapError_ok_iff,
    except_pure_ok_iff, encodeExecutionBinding_ok_iff]
  constructor
  · rintro ⟨b', hd, _, hv, rfl⟩
    exact ⟨hv, hd⟩
  · rintro ⟨hv, hd⟩
    exact ⟨b, hd, (), hv, rfl⟩

theorem encodeExecutionBinding_length {b : ExecutionBinding} {data : List UInt8}
    (h : encodeExecutionBinding b = .ok data) : data.length = executionBindingLen := by
  rw [(encodeExecutionBinding_ok_iff.mp h).2]
  exact executionCodec.length_enc b

def settlementCodec : Codec CodecError SettlementBinding :=
  (versionCodec.pair <| (Codec.bytes 32).pair <| (Codec.bytes 32).pair <| (Codec.bytes 32).pair <|
    Codec.u64.pair <| Codec.u64.pair <| Codec.u64.pair <| Codec.u64.pair <| Codec.u64.pair <|
    Codec.u64.pair <| Codec.u64.pair <| Codec.u64.pair <| Codec.u64.pair <| Codec.u64.pair <|
    Codec.u64.pair <| Codec.u64.pair <| Codec.u64.pair <| Codec.u64.pair Codec.u64).map
    (fun (_, intentDigest, primaryExecutionDigest, primaryReceiptDigest, amountIn, amountOut,
        protocolFee, totalInputDebit, accountedInputBefore, accountedOutputBefore,
        accountedFeeBefore, accountedInputAfter, accountedOutputAfter, accountedFeeAfter,
        observedSourceAfter, observedDestinationAfter, observedInputVaultAfter,
        observedOutputVaultAfter, observedFeeVaultAfter) =>
      { intentDigest, primaryExecutionDigest, primaryReceiptDigest, amountIn, amountOut,
        protocolFee, totalInputDebit, accountedInputBefore, accountedOutputBefore,
        accountedFeeBefore, accountedInputAfter, accountedOutputAfter, accountedFeeAfter,
        observedSourceAfter, observedDestinationAfter, observedInputVaultAfter,
        observedOutputVaultAfter, observedFeeVaultAfter })
    (fun b => ((), b.intentDigest, b.primaryExecutionDigest, b.primaryReceiptDigest, b.amountIn,
      b.amountOut, b.protocolFee, b.totalInputDebit, b.accountedInputBefore,
      b.accountedOutputBefore, b.accountedFeeBefore, b.accountedInputAfter, b.accountedOutputAfter,
      b.accountedFeeAfter, b.observedSourceAfter, b.observedDestinationAfter,
      b.observedInputVaultAfter, b.observedOutputVaultAfter, b.observedFeeVaultAfter))
    (fun _ => rfl) (fun _ => rfl)

theorem readSettlementBinding_eq (data : List UInt8) :
    readSettlementBinding data = settlementCodec.read data := by
  simp only [readSettlementBinding, settlementCodec, Codec.map, Codec.pair, Codec.literal,
    Codec.bytes, Codec.u64, Codec.u8, versionCodec, bind_assoc, pure_bind, readU64]

private theorem settlementCodec_valid (b : SettlementBinding) : settlementCodec.Valid b := by
  simp only [settlementCodec, versionCodec_valid, Codec.map_valid_iff, Codec.pair_valid_iff,
    Codec.bytes_valid, Codec.u64_valid, and_self]

theorem encodeSettlementBinding_eq (b : SettlementBinding) :
    encodeSettlementBinding b = .ok (settlementCodec.enc b) := by
  rw [encodeSettlementBinding, fill_enc settlementCodec (n := settlementBindingLen) (a := b) rfl]
  simp only [List.flatten_cons, List.flatten_nil, List.append_nil]
  rfl

theorem encodeSettlementBinding_ok_iff {b : SettlementBinding} {data : List UInt8} :
    encodeSettlementBinding b = .ok data ↔
      settlementCodec.Valid b ∧ data = settlementCodec.enc b := by
  rw [encodeSettlementBinding_eq, Except.ok.injEq, eq_comm]
  simp [settlementCodec_valid]

section Requests

variable [Crypto]

theorem encodeEngineRequest_ok_iff {r : EngineRequest} {data : List UInt8} :
    encodeEngineRequest r = .ok data ↔ validateEngineRequest r = .ok () ∧
      ∃ encoded, encodeExecutionBinding r.binding = .ok encoded ∧
        data = encoded ++ r.executionDigest.toList := by
  have hfill : ∀ encoded, encodeExecutionBinding r.binding = .ok encoded →
      fill engineRequestLen (putAll [encoded, r.executionDigest.toList]) =
        (.ok (encoded ++ r.executionDigest.toList) : WireResult (List UInt8)) := by
    intro encoded hencoded
    have hlen := encodeExecutionBinding_length hencoded
    rw [fill_putAll] <;> simp [hlen, engineRequestLen]
  unfold encodeEngineRequest
  simp only [except_bind_ok_iff]
  constructor
  · rintro ⟨_, hv, encoded, hencoded, hdata⟩
    rw [hfill encoded hencoded, Except.ok.injEq] at hdata
    exact ⟨hv, encoded, hencoded, hdata.symm⟩
  · rintro ⟨hv, encoded, hencoded, rfl⟩
    exact ⟨(), hv, encoded, hencoded, hfill encoded hencoded⟩

theorem encodeEngineRequest_length {r : EngineRequest} {data : List UInt8}
    (h : encodeEngineRequest r = .ok data) : data.length = engineRequestLen := by
  obtain ⟨-, encoded, hencoded, rfl⟩ := encodeEngineRequest_ok_iff.mp h
  have hlen := encodeExecutionBinding_length hencoded
  simp [hlen, engineRequestLen]

theorem decodeEngineRequest_ok_iff {data : List UInt8} {r : EngineRequest} :
    decodeEngineRequest data = .ok r ↔ encodeEngineRequest r = .ok data := by
  simp only [decodeEngineRequest, requireLength, except_bind_ok_iff, require_ok_iff,
    decodeExecutionBinding_ok_iff, copyFromSlice_ok_iff, except_pure_ok_iff,
    encodeEngineRequest_ok_iff]
  constructor
  · rintro ⟨_, hlen, binding, hbinding, digest, hdigest, _, hv, rfl⟩
    refine ⟨hv, _, hbinding, ?_⟩
    rw [← hdigest, List.take_append_drop]
  · rintro ⟨hv, encoded, hencoded, rfl⟩
    have hlen := encodeExecutionBinding_length hencoded
    refine ⟨(), by simp [hlen, engineRequestLen], r.binding, ?_, r.executionDigest, ?_, (), hv, rfl⟩
    · rw [List.take_left' hlen]
      exact hencoded
    · exact List.drop_left' hlen

omit [Crypto] in
theorem enginePhaseDiscriminator_ok_iff {phase : UInt8} {discriminator : Bytes 8} :
    enginePhaseDiscriminator phase = .ok discriminator ↔
      phase = phaseTransition ∧ discriminator = engineTransitionDiscriminator ∨
        phase = phasePrepare ∧ discriminator = enginePrepareDiscriminator ∨
        phase = phaseCommit ∧ discriminator = engineCommitDiscriminator := by
  unfold enginePhaseDiscriminator
  constructor
  · intro h
    split at h
    · next hp => exact .inl ⟨hp, (Except.ok.inj h).symm⟩
    · split at h
      · next hp => exact .inr (.inl ⟨hp, (Except.ok.inj h).symm⟩)
      · split at h
        · next hp => exact .inr (.inr ⟨hp, (Except.ok.inj h).symm⟩)
        · cases h
  · rintro (⟨rfl, rfl⟩ | ⟨rfl, rfl⟩ | ⟨rfl, rfl⟩)
    · rfl
    · rfl
    · rfl

/-- An instruction is the discriminator of its phase and the encoded request. -/
theorem encodeEngineInstruction_ok_iff {r : EngineRequest} {data : List UInt8} :
    encodeEngineInstruction r = .ok data ↔ ∃ encoded discriminator,
      encodeEngineRequest r = .ok encoded ∧
      enginePhaseDiscriminator r.binding.phase = .ok discriminator ∧
      data = discriminator.toList ++ encoded := by
  have hfill : ∀ encoded (discriminator : Bytes 8), encodeEngineRequest r = .ok encoded →
      fill engineInstructionLen (putAll [discriminator.toList, encoded]) =
        (.ok (discriminator.toList ++ encoded) : WireResult (List UInt8)) := by
    intro encoded discriminator hencoded
    have hlen := encodeEngineRequest_length hencoded
    rw [fill_putAll] <;> simp [hlen, engineInstructionLen]
  unfold encodeEngineInstruction
  simp only [except_bind_ok_iff, mapError_ok_iff]
  constructor
  · rintro ⟨encoded, hencoded, discriminator, hdisc, hdata⟩
    rw [hfill encoded discriminator hencoded, Except.ok.injEq] at hdata
    exact ⟨encoded, discriminator, hencoded, hdisc, hdata.symm⟩
  · rintro ⟨encoded, discriminator, hencoded, hdisc, rfl⟩
    exact ⟨encoded, hencoded, discriminator, hdisc, hfill encoded discriminator hencoded⟩

theorem decodeEngineInstruction_ok_iff {data : List UInt8} {r : EngineRequest} :
    decodeEngineInstruction data = .ok r ↔ encodeEngineInstruction r = .ok data := by
  simp only [decodeEngineInstruction, requireLength, except_bind_ok_iff, require_ok_iff,
    decodeEngineRequest_ok_iff, mapError_ok_iff, except_pure_ok_iff, encodeEngineInstruction_ok_iff]
  constructor
  · rintro ⟨_, hlen, r', hencoded, discriminator, hdisc, _, htake, rfl⟩
    refine ⟨_, discriminator, hencoded, hdisc, ?_⟩
    rw [← htake, List.take_append_drop]
  · rintro ⟨encoded, discriminator, hencoded, hdisc, rfl⟩
    have hlen := encodeEngineRequest_length hencoded
    have hd : discriminator.toList.length = 8 := discriminator.length_toList
    refine ⟨(), by simp [hlen, engineInstructionLen], r, ?_, discriminator, hdisc, (), ?_, rfl⟩
    · rw [List.drop_left' hd]
      exact hencoded
    · exact List.take_left' hd

end Requests

section Digests

variable [Crypto]

theorem computeIntentDigest_succeeds {b : IntentBinding}
    (h : requireTimingMode b.timingMode = .ok ()) : ∃ digest, computeIntentDigest b = .ok digest := by
  have hencode := encodeIntentBinding_ok_iff.mpr ⟨(intentCodec_valid_iff b).mpr h, rfl⟩
  simp only [computeIntentDigest, except_bind_ok_iff, except_pure_ok_iff]
  exact ⟨_, _, hencode, rfl⟩

omit [Crypto] in
/-- A binding for few accounts and a short payload can be made, with a context exactly in
COMMIT. -/
theorem executionBinding_new_succeeds {phase : UInt8}
    {intentDigest phaseContextDigest authorizedCapabilityHash phaseCapabilityHash : Hash}
    {market domain : Pubkey} {engineRevision amountIn protocolFee accountedInputBefore
      accountedOutputBefore accountedFeeBefore preSequence : UInt64} {count : UInt16}
    {payload : List UInt8} (hphase : requirePhase phase = .ok ())
    (hcontext : phaseContextDigest ≠ Bytes.zero 32 ↔ phase = phaseCommit)
    (hcount : count.toNat ≤ maxOpaqueAccounts) (hpayload : payload.length ≤ maxOpaquePayloadLen) :
    ∃ b, ExecutionBinding.new phase intentDigest phaseContextDigest market domain engineRevision
        amountIn protocolFee accountedInputBefore accountedOutputBefore accountedFeeBefore
        preSequence authorizedCapabilityHash phaseCapabilityHash count payload = .ok b ∧
      validateExecutionBinding b = .ok () := by
  obtain ⟨payloadLen, field, hcanonical, hfield, -⟩ := canonicalPayload_ok hpayload
  have hvalidCount := (validateOpaqueAccountCount_ok_iff (u := ())).mpr hcount
  let b : ExecutionBinding :=
    { phase, intentDigest, phaseContextDigest, market, domain, engineRevision, amountIn, protocolFee,
      accountedInputBefore, accountedOutputBefore, accountedFeeBefore, preSequence,
      authorizedCapabilityHash, phaseCapabilityHash, opaqueAccountCount := count, payloadLen,
      payload := field }
  have hvalid : validateExecutionBinding b = .ok () := by
    simp only [validateExecutionBinding, except_bind_ok_iff, require_ok_iff]
    exact ⟨(), hphase, (), hcontext, (), hvalidCount, hfield⟩
  refine ⟨b, ?_, hvalid⟩
  simp only [ExecutionBinding.new, except_bind_ok_iff, mapError_ok_iff, except_pure_ok_iff]
  exact ⟨(), hphase, (), hvalidCount, (payloadLen, field), hcanonical, (), hvalid, rfl⟩

private theorem computeExecutionDigest_eq {b : ExecutionBinding}
    (h : validateExecutionBinding b = .ok ()) :
    computeExecutionDigest b = .ok (hashv [executionHashDomain, executionCodec.enc b]) := by
  simp only [computeExecutionDigest, except_bind_ok_iff, except_pure_ok_iff]
  exact ⟨_, encodeExecutionBinding_ok_iff.mpr ⟨h, rfl⟩, rfl⟩

/-- A request for a valid binding can be made and sent. -/
theorem engineRequest_new_succeeds {b : ExecutionBinding} (h : validateExecutionBinding b = .ok ()) :
    ∃ r data, EngineRequest.new b = .ok r ∧ encodeEngineInstruction r = .ok data := by
  have hdigest := computeExecutionDigest_eq h
  let r : EngineRequest := ⟨b, hashv [executionHashDomain, executionCodec.enc b]⟩
  have hrequest : validateEngineRequest r = .ok () := by
    simp only [validateEngineRequest, except_bind_ok_iff, require_ok_iff]
    exact ⟨_, hdigest, rfl⟩
  have hencode : encodeEngineRequest r = .ok (executionCodec.enc b ++ r.executionDigest.toList) :=
    encodeEngineRequest_ok_iff.mpr ⟨hrequest, _, encodeExecutionBinding_ok_iff.mpr ⟨h, rfl⟩, rfl⟩
  have hlen := encodeEngineRequest_length hencode
  have hphase : ∃ discriminator, enginePhaseDiscriminator b.phase = .ok discriminator := by
    simp only [validateExecutionBinding, requirePhase, except_bind_ok_iff, require_ok_iff] at h
    obtain ⟨_, hphase, -⟩ := h
    rcases hphase with hp | hp | hp <;> rw [hp] <;> exact ⟨_, rfl⟩
  obtain ⟨discriminator, hdiscriminator⟩ := hphase
  refine ⟨r, discriminator.toList ++ (executionCodec.enc b ++ r.executionDigest.toList), ?_, ?_⟩
  · simp only [EngineRequest.new, except_bind_ok_iff, except_pure_ok_iff]
    exact ⟨_, hdigest, rfl⟩
  · simp only [encodeEngineInstruction, except_bind_ok_iff, mapError_ok_iff]
    refine ⟨_, hencode, discriminator, hdiscriminator, ?_⟩
    rw [fill_putAll] <;> simp only [List.flatten_cons, List.flatten_nil, List.append_nil]
    rw [List.length_append, hlen, discriminator.length_toList, engineInstructionLen]

theorem computeReceiptDigest_succeeds {r : EngineReceipt} {data : List UInt8}
    (h : encodeReceipt r = .ok data) : ∃ digest, computeReceiptDigest r = .ok digest := by
  simp only [computeReceiptDigest, except_bind_ok_iff, except_pure_ok_iff]
  exact ⟨_, _, h, rfl⟩

theorem computeSettlementDigest_succeeds (b : SettlementBinding) :
    ∃ digest, computeSettlementDigest b = .ok digest := by
  simp only [computeSettlementDigest, encodeSettlementBinding, except_bind_ok_iff,
    except_pure_ok_iff]
  rw [fill_putAll (by simp [settlementBindingLen])]
  exact ⟨_, _, rfl, rfl⟩

end Digests

end ProgrammableSolana.Wire.Routed
