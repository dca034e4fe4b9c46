import ProgrammableSolana.Wire.RootCodec
import ProgrammableSolana.Wire.GeneratedCodec

/-! The formats of the generated-settlement and the authority-kernel wire crates are exact. -/
namespace ProgrammableSolana.Wire

open ProgrammableSolana.Lib ProgrammableSolana.Solana

/-- A request behind the evaluate discriminator is as exact as the request. -/
theorem evaluateFormat {α : Type} {n : ℕ} {encodeRequest encode : α → WireResult (List UInt8)}
    {decodeRequest decode : List UInt8 → WireResult α}
    (h : ExactFormat n encodeRequest decodeRequest)
    (hencode : ∀ r, encode r = do
      let encoded ← encodeRequest r
      fill (8 + n) (putAll [evaluateDiscriminator.toList, encoded]))
    (hdecode : ∀ data, decode data = do
      requireLength data (8 + n)
      require (data.take 8 = evaluateDiscriminator.toList) (.codec .invalidDiscriminator)
      decodeRequest (data.drop 8)) :
    ExactFormat (8 + n) encode decode := by
  have hfill : ∀ r encoded, encodeRequest r = .ok encoded →
      fill (8 + n) (putAll [evaluateDiscriminator.toList, encoded]) =
        (.ok (evaluateDiscriminator.toList ++ encoded) : WireResult (List UInt8)) := by
    intro r encoded hencoded
    have hlen := h.length hencoded
    have hchunks : [evaluateDiscriminator.toList, encoded].flatten =
        evaluateDiscriminator.toList ++ encoded := by simp
    rw [fill_putAll, hchunks]
    rw [hchunks, List.length_append, hlen, evaluateDiscriminator.length_toList]
  have hiff : ∀ {r data}, encode r = .ok data ↔
      ∃ encoded, encodeRequest r = .ok encoded ∧ data = evaluateDiscriminator.toList ++ encoded := by
    intro r data
    rw [hencode, except_bind_ok_iff]
    refine exists_congr fun encoded => and_congr_right fun hencoded => ?_
    rw [hfill r encoded hencoded, Except.ok.injEq, eq_comm]
  constructor
  · intro data r
    rw [hdecode, hiff]
    simp only [requireLength, except_bind_ok_iff, require_ok_iff, h.decode_ok_iff]
    constructor
    · rintro ⟨_, -, _, htake, hencoded⟩
      refine ⟨_, hencoded, ?_⟩
      rw [← htake, List.take_append_drop]
    · rintro ⟨encoded, hencoded, rfl⟩
      have hlen := h.length hencoded
      have hd : evaluateDiscriminator.toList.length = 8 := evaluateDiscriminator.length_toList
      refine ⟨(), by rw [List.length_append, hlen, hd], (), List.take_left' hd, ?_⟩
      rw [List.drop_left' hd]
      exact hencoded
  · intro r data hr
    obtain ⟨encoded, hencoded, rfl⟩ := hiff.mp hr
    rw [List.length_append, h.length hencoded, evaluateDiscriminator.length_toList]
  · intro r hr
    rw [hencode] at hr
    rcases except_bind_error_iff.mp hr with hr | ⟨encoded, hencoded, hr⟩
    · exact h.encode_inBounds r hr
    · rw [hfill r encoded hencoded] at hr
      cases hr
  · intro data hdata
    rw [hdecode, requireLength] at hdata
    rcases except_bind_error_iff.mp hdata with hdata | ⟨_, -, hdata⟩
    · simp at hdata
    · rcases except_bind_error_iff.mp hdata with hdata | ⟨_, -, hdata⟩
      · simp at hdata
      · exact h.decode_inBounds _ hdata

namespace Generated

private theorem readRequestBinding_eq (data : List UInt8) :
    readRequestBinding data = bindingCodec.read data := by
  simp only [readRequestBinding, bindingCodec, Codec.map, Codec.pair, Codec.literal, Codec.bytes,
    Codec.u64, Codec.u8, versionCodec, bind_assoc, pure_bind, readU64]

theorem bindingFormat : ExactFormat requestBindingLen encodeRequestBinding decodeRequestBinding := by
  refine bindingCodec.exactFormat rfl (fun data => .invalidLength requestBindingLen data.length)
    ?_ ?_ ?_
  · intro b data
    rw [encodeRequestBinding_eq, Except.ok.injEq, eq_comm]
    simp [bindingCodec_valid]
  · intro b
    simp [encodeRequestBinding_eq]
  · intro data
    rw [decodeRequestBinding, readRequestBinding_eq, requireLength]

theorem requestFormat : ExactFormat engineRequestLen encodeRequest decodeRequest := by
  refine (requestCodec.guard validateEngineRequest).exactFormat rfl
    (fun data => .invalidLength engineRequestLen data.length) ?_ ?_ ?_
  · intro r data
    rw [encodeRequest_ok_iff, Codec.guard_valid_iff]
    simp only [requestCodec_valid, true_and]
    rfl
  · intro r
    rw [encodeRequest_eq]
    exact mapError_bind_ok_ne_outOfBounds
  · intro data
    rw [decodeRequest, readRequest_eq, requireLength, Codec.guard_decode]

theorem instructionFormat :
    ExactFormat evaluateInstructionLen encodeEvaluateInstruction decodeEvaluateInstruction :=
  evaluateFormat requestFormat (fun _ => rfl) (fun _ => rfl)

theorem receiptFormat : ExactFormat engineReceiptLen encodeReceipt decodeReceipt := by
  refine receiptCodec.exactFormat rfl (fun data => .invalidLength engineReceiptLen data.length)
    ?_ ?_ ?_
  · intro r data
    have hvalid : receiptCodec.Valid r := ⟨trivial, trivial, trivial, trivial, trivial⟩
    rw [encodeReceipt_eq, Except.ok.injEq, eq_comm]
    simp [hvalid]
  · intro r
    simp [encodeReceipt_eq]
  · intro data
    rw [decodeReceipt, readReceipt_eq, requireLength]

/-- Every request the constructor makes can be encoded, and gives its payload back. -/
theorem engineRequest_new_payloadBytes {requestHash : Hash} {market domain : Pubkey}
    {engineRevision amountIn accountedInputBefore accountedOutputBefore : UInt64} {count : UInt16}
    {capabilityHash : Hash} {payload : List UInt8} {r : EngineRequest}
    (h : EngineRequest.new requestHash market domain engineRevision amountIn accountedInputBefore
      accountedOutputBefore count capabilityHash payload = .ok r) :
    (∃ data, encodeRequest r = .ok data) ∧ r.payloadBytes = .ok payload := by
  unfold EngineRequest.new at h
  simp only [except_bind_ok_iff, mapError_ok_iff, except_pure_ok_iff, Prod.exists] at h
  obtain ⟨_, hcount, payloadLen, field, hpayload, rfl⟩ := h
  obtain ⟨hfield, htake⟩ := canonicalPayload_valid hpayload
  let r : EngineRequest :=
    { requestHash, market, domain, engineRevision, amountIn, accountedInputBefore,
      accountedOutputBefore, opaqueAccountCount := count, capabilityHash, payloadLen,
      payload := field }
  have hvalid : validateEngineRequest r = .ok () := by
    simp only [validateEngineRequest, except_bind_ok_iff]
    exact ⟨(), hcount, hfield⟩
  refine ⟨⟨_, encodeRequest_ok_iff.mpr ⟨hvalid, rfl⟩⟩, ?_⟩
  simp only [EngineRequest.payloadBytes, except_bind_ok_iff, except_pure_ok_iff]
  exact ⟨(), hvalid, htake⟩

end Generated

namespace Root

theorem requestFormat : ExactFormat engineRequestLen encodeRequest decodeRequest := by
  refine requestCodec.exactFormat rfl (fun data => .invalidLength engineRequestLen data.length)
    ?_ ?_ ?_
  · intro r data
    rw [encodeRequest_eq, Except.ok.injEq, eq_comm]
    simp [requestCodec_valid]
  · intro r
    simp [encodeRequest_eq]
  · intro data
    rw [decodeRequest, readRequest_eq, requireLength]

theorem instructionFormat :
    ExactFormat evaluateInstructionLen encodeEvaluateInstruction decodeEvaluateInstruction :=
  evaluateFormat requestFormat (fun _ => rfl) (fun _ => rfl)

theorem receiptFormat : ExactFormat engineReceiptLen encodeReceipt decodeReceipt := by
  refine receiptCodec.exactFormat rfl (fun data => .invalidLength engineReceiptLen data.length)
    ?_ ?_ ?_
  · intro r data
    have hvalid : receiptCodec.Valid r := ⟨trivial, trivial, trivial, trivial⟩
    rw [encodeReceipt_eq, Except.ok.injEq, eq_comm]
    simp [hvalid]
  · intro r
    simp [encodeReceipt_eq]
  · intro data
    rw [decodeReceipt, readReceipt_eq, requireLength]

end Root

/-- In both crates decoding accepts exactly the encodings, no index leaves its buffer and every
reader stops at the end; the requests the generated crate makes are encodable and give their payload
back. -/
theorem formats_exact :
    (ExactFormat Generated.requestBindingLen Generated.encodeRequestBinding
        Generated.decodeRequestBinding ∧
      ExactFormat Generated.engineRequestLen Generated.encodeRequest Generated.decodeRequest ∧
      ExactFormat Generated.evaluateInstructionLen Generated.encodeEvaluateInstruction
        Generated.decodeEvaluateInstruction ∧
      ExactFormat Generated.engineReceiptLen Generated.encodeReceipt Generated.decodeReceipt ∧
      EndsAt Generated.readRequestBinding Generated.requestBindingLen ∧
      EndsAt Generated.readRequest Generated.engineRequestLen ∧
      EndsAt Generated.readReceipt Generated.engineReceiptLen) ∧
    (∀ requestHash market domain engineRevision amountIn accountedInputBefore accountedOutputBefore
        count capabilityHash payload r,
      Generated.EngineRequest.new requestHash market domain engineRevision amountIn
          accountedInputBefore accountedOutputBefore count capabilityHash payload = .ok r →
        (∃ data, Generated.encodeRequest r = .ok data) ∧ r.payloadBytes = .ok payload) ∧
    ExactFormat Root.engineRequestLen Root.encodeRequest Root.decodeRequest ∧
      ExactFormat Root.evaluateInstructionLen Root.encodeEvaluateInstruction
        Root.decodeEvaluateInstruction ∧
      ExactFormat Root.engineReceiptLen Root.encodeReceipt Root.decodeReceipt ∧
      EndsAt Root.readRequest Root.engineRequestLen ∧
      EndsAt Root.readReceipt Root.engineReceiptLen := by
  refine ⟨⟨Generated.bindingFormat, Generated.requestFormat, Generated.instructionFormat,
    Generated.receiptFormat, ?_, ?_, ?_⟩, ?_, Root.requestFormat, Root.instructionFormat,
    Root.receiptFormat, ?_, ?_⟩
  · exact Generated.bindingCodec.endsAt rfl Generated.readRequestBinding_eq
  · exact Generated.requestCodec.endsAt rfl Generated.readRequest_eq
  · exact Generated.receiptCodec.endsAt rfl Generated.readReceipt_eq
  · intro requestHash market domain engineRevision amountIn accountedInputBefore
      accountedOutputBefore count capabilityHash payload r h
    exact Generated.engineRequest_new_payloadBytes h
  · exact Root.requestCodec.endsAt rfl Root.readRequest_eq
  · exact Root.receiptCodec.endsAt rfl Root.readReceipt_eq

theorem formats_exact_sample : ∃ r data,
    Generated.EngineRequest.new (Bytes.zero 32) (Bytes.zero 32) (Bytes.zero 32) 1 100 1000 2000 3
        (Bytes.zero 32) [7, 8] = .ok r ∧
      Generated.encodeRequest r = .ok data ∧ r.payloadBytes = .ok [7, 8] := by
  obtain ⟨r, hr⟩ : ∃ r, Generated.EngineRequest.new (Bytes.zero 32) (Bytes.zero 32) (Bytes.zero 32)
      1 100 1000 2000 3 (Bytes.zero 32) [7, 8] = .ok r := ⟨_, rfl⟩
  obtain ⟨⟨data, hdata⟩, hpayload⟩ := formats_exact.2.1 _ _ _ _ _ _ _ _ _ _ r hr
  exact ⟨r, data, hr, hdata, hpayload⟩

end ProgrammableSolana.Wire
