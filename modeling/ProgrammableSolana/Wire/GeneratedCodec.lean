import ProgrammableSolana.Wire.Generated

/-! The request codecs of the generated-settlement wire format are exact. -/
namespace ProgrammableSolana.Wire.Generated

open ProgrammableSolana.Lib ProgrammableSolana.Solana

/-- The fields of a request, before they are validated together. -/
def requestCodec : Codec CodecError EngineRequest :=
  (versionCodec.pair <| (Codec.bytes 32).pair <| (Codec.bytes 32).pair <|
    (Codec.bytes 32).pair <| Codec.u64.pair <| Codec.u64.pair <| Codec.u64.pair <|
    Codec.u64.pair <| Codec.u16.pair <| (Codec.bytes 32).pair <| Codec.u16.pair
    (Codec.bytes maxOpaquePayloadLen)).map
    (fun (_, requestHash, market, domain, engineRevision, amountIn, accountedInputBefore,
        accountedOutputBefore, opaqueAccountCount, capabilityHash, payloadLen, payload) =>
      { requestHash, market, domain, engineRevision, amountIn, accountedInputBefore,
        accountedOutputBefore, opaqueAccountCount, capabilityHash, payloadLen, payload })
    (fun r => ((), r.requestHash, r.market, r.domain, r.engineRevision, r.amountIn,
      r.accountedInputBefore, r.accountedOutputBefore, r.opaqueAccountCount, r.capabilityHash,
      r.payloadLen, r.payload))
    (fun _ => rfl) (fun _ => rfl)

theorem readRequest_eq (data : List UInt8) : readRequest data = requestCodec.read data := by
  simp only [readRequest, requestCodec, Codec.map, Codec.pair, Codec.literal, Codec.bytes,
    Codec.u64, Codec.u16, Codec.u8, versionCodec, bind_assoc, pure_bind, readU64, readU16]

theorem requestCodec_valid (r : EngineRequest) : requestCodec.Valid r := by
  simp only [requestCodec, versionCodec_valid, Codec.map_valid_iff, Codec.pair_valid_iff,
    Codec.bytes_valid, Codec.u64_valid, Codec.u16_valid, and_self]

theorem encodeRequest_eq (r : EngineRequest) : encodeRequest r =
    ((validateEngineRequest r).mapError .codec >>= fun _ => .ok (requestCodec.enc r)) := by
  rw [encodeRequest, fill_enc requestCodec (n := engineRequestLen) (a := r) rfl]
  simp only [List.flatten_cons, List.flatten_nil, List.append_nil]
  rfl

theorem encodeRequest_ok_iff {r : EngineRequest} {data : List UInt8} :
    encodeRequest r = .ok data ↔ validateEngineRequest r = .ok () ∧ data = requestCodec.enc r := by
  rw [encodeRequest_eq, mapError_bind_ok_iff]

theorem decodeRequest_ok_iff {data : List UInt8} {r : EngineRequest} :
    decodeRequest data = .ok r ↔ encodeRequest r = .ok data := by
  have hread : ∀ r', (require (data.length = engineRequestLen)
      (.codec (.invalidLength engineRequestLen data.length)) >>= fun _ =>
        (readRequest data).decode) = .ok r' ↔ data = requestCodec.enc r' := by
    intro r'
    rw [readRequest_eq, requestCodec.require_decode_eq_ok_iff (n := engineRequestLen) rfl]
    simp [requestCodec_valid]
  rw [decodeRequest, requireLength, ← bind_assoc]
  simp only [except_bind_ok_iff (x := _ >>= _), hread, except_bind_ok_iff, mapError_ok_iff,
    except_pure_ok_iff, encodeRequest_ok_iff]
  constructor
  · rintro ⟨r', hd, _, hv, rfl⟩
    exact ⟨hv, hd⟩
  · rintro ⟨hv, hd⟩
    exact ⟨r, hd, (), hv, rfl⟩

theorem encodeRequest_length {r : EngineRequest} {data : List UInt8}
    (h : encodeRequest r = .ok data) : data.length = engineRequestLen := by
  rw [(encodeRequest_ok_iff.mp h).2]
  exact requestCodec.length_enc r

/-- An evaluate instruction is its discriminator and the encoded request. -/
theorem encodeEvaluateInstruction_ok_iff {r : EngineRequest} {data : List UInt8} :
    encodeEvaluateInstruction r = .ok data ↔
      ∃ encoded, encodeRequest r = .ok encoded ∧ data = evaluateDiscriminator.toList ++ encoded := by
  unfold encodeEvaluateInstruction
  simp only [except_bind_ok_iff]
  refine exists_congr fun encoded => and_congr_right fun hencoded => ?_
  have hlen := encodeRequest_length hencoded
  rw [fill_putAll (by simp [hlen, evaluateInstructionLen])]
  simp only [List.flatten_cons, List.flatten_nil, List.append_nil, Except.ok.injEq]
  exact eq_comm

theorem engineRequest_new_ok {requestHash : Hash} {market domain : Pubkey}
    {engineRevision amountIn accountedInputBefore accountedOutputBefore : UInt64} {count : UInt16}
    {capabilityHash : Hash} {payload : List UInt8} {r : EngineRequest}
    (h : EngineRequest.new requestHash market domain engineRevision amountIn accountedInputBefore
      accountedOutputBefore count capabilityHash payload = .ok r) :
    r = { requestHash, market, domain, engineRevision, amountIn, accountedInputBefore,
          accountedOutputBefore, opaqueAccountCount := count, capabilityHash,
          payloadLen := r.payloadLen, payload := r.payload } ∧
      canonicalPayload payload = .ok (r.payloadLen, r.payload) := by
  unfold EngineRequest.new at h
  simp only [except_bind_ok_iff, mapError_ok_iff, except_pure_ok_iff, Prod.exists] at h
  obtain ⟨_, -, payloadLen, field, hpayload, rfl⟩ := h
  exact ⟨rfl, hpayload⟩

/-- A request for few accounts and a short payload can be made and sent. -/
theorem engineRequest_new_succeeds {requestHash : Hash} {market domain : Pubkey}
    {engineRevision amountIn accountedInputBefore accountedOutputBefore : UInt64} {count : UInt16}
    {capabilityHash : Hash} {payload : List UInt8} (hcount : count.toNat ≤ maxOpaqueAccounts)
    (hpayload : payload.length ≤ maxOpaquePayloadLen) :
    ∃ r data, EngineRequest.new requestHash market domain engineRevision amountIn
        accountedInputBefore accountedOutputBefore count capabilityHash payload = .ok r ∧
      encodeEvaluateInstruction r = .ok data := by
  obtain ⟨payloadLen, field, hcanonical, hvalid, -⟩ := canonicalPayload_ok hpayload
  have hvalidCount := (validateOpaqueAccountCount_ok_iff (u := ())).mpr hcount
  let r : EngineRequest :=
    { requestHash, market, domain, engineRevision, amountIn, accountedInputBefore,
      accountedOutputBefore, opaqueAccountCount := count, capabilityHash, payloadLen,
      payload := field }
  have hencode : encodeRequest r = .ok (requestCodec.enc r) := by
    refine encodeRequest_ok_iff.mpr ⟨?_, rfl⟩
    simp only [validateEngineRequest, except_bind_ok_iff]
    exact ⟨(), hvalidCount, hvalid⟩
  refine ⟨r, _, ?_, encodeEvaluateInstruction_ok_iff.mpr ⟨_, hencode, rfl⟩⟩
  simp only [EngineRequest.new, except_bind_ok_iff, mapError_ok_iff, except_pure_ok_iff]
  exact ⟨(), hvalidCount, (payloadLen, field), hcanonical, rfl⟩

def bindingCodec : Codec CodecError RequestBinding :=
  (versionCodec.pair <| (Codec.bytes 32).pair <| (Codec.bytes 32).pair <| (Codec.bytes 32).pair <|
    (Codec.bytes 32).pair <| (Codec.bytes 32).pair <| (Codec.bytes 32).pair <|
    (Codec.bytes 32).pair <| (Codec.bytes 32).pair <| (Codec.bytes 32).pair <|
    (Codec.bytes 32).pair <| (Codec.bytes 32).pair <| (Codec.bytes 32).pair <|
    (Codec.bytes 32).pair <| (Codec.bytes 32).pair <| (Codec.bytes 32).pair <| Codec.u64.pair <|
    Codec.u64.pair <| Codec.u64.pair <| Codec.u64.pair <| Codec.u64.pair <| Codec.u64.pair <|
    Codec.u64.pair <| Codec.u64.pair <| Codec.u64.pair <| Codec.u64.pair <| Codec.u64.pair <|
    (Codec.bytes 32).pair (Codec.bytes 32)).map
    (fun (_, coreProgram, market, domain, engineProgram, engineState, userAuthority, userInput,
        userOutput, mintIn, mintOut, domainInputVault, domainOutputVault, protocolFeeVault,
        feeLedger, tokenProgram, engineRevision, feePolicyRevision, amountIn, protocolFee,
        maxTotalInputDebit, minOutputCredit, maxProtocolFee, accountedInputBefore,
        accountedOutputBefore, accountedFeeBefore, expiresAtSlot, capabilityHash, payloadHash) =>
      { coreProgram, market, domain, engineProgram, engineState, userAuthority, userInput,
        userOutput, mintIn, mintOut, domainInputVault, domainOutputVault, protocolFeeVault,
        feeLedger, tokenProgram, engineRevision, feePolicyRevision, amountIn, protocolFee,
        maxTotalInputDebit, minOutputCredit, maxProtocolFee, accountedInputBefore,
        accountedOutputBefore, accountedFeeBefore, expiresAtSlot, capabilityHash, payloadHash })
    (fun b => ((), b.coreProgram, b.market, b.domain, b.engineProgram, b.engineState,
      b.userAuthority, b.userInput, b.userOutput, b.mintIn, b.mintOut, b.domainInputVault,
      b.domainOutputVault, b.protocolFeeVault, b.feeLedger, b.tokenProgram, b.engineRevision,
      b.feePolicyRevision, b.amountIn, b.protocolFee, b.maxTotalInputDebit, b.minOutputCredit,
      b.maxProtocolFee, b.accountedInputBefore, b.accountedOutputBefore, b.accountedFeeBefore,
      b.expiresAtSlot, b.capabilityHash, b.payloadHash))
    (fun _ => rfl) (fun _ => rfl)

theorem bindingCodec_valid (b : RequestBinding) : bindingCodec.Valid b := by
  simp only [bindingCodec, versionCodec_valid, Codec.map_valid_iff, Codec.pair_valid_iff,
    Codec.bytes_valid, Codec.u64_valid, and_self]

theorem encodeRequestBinding_eq (b : RequestBinding) :
    encodeRequestBinding b = .ok (bindingCodec.enc b) := by
  rw [encodeRequestBinding, fill_enc bindingCodec (n := requestBindingLen) (a := b) rfl]
  simp only [List.flatten_cons, List.flatten_nil, List.append_nil]
  rfl

theorem computeRequestHash_eq [Crypto] (b : RequestBinding) :
    computeRequestHash b = .ok (hashv [requestHashDomain, bindingCodec.enc b]) := by
  simp only [computeRequestHash, except_bind_ok_iff, except_pure_ok_iff]
  exact ⟨_, encodeRequestBinding_eq b, rfl⟩

end ProgrammableSolana.Wire.Generated
