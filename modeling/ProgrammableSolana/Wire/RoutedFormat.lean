import ProgrammableSolana.Wire.RoutedCodec

/-! The strings the routed wire crate accepts, format by format, and that they are exactly its
encodings. -/
namespace ProgrammableSolana.Wire.Routed

open ProgrammableSolana.Lib ProgrammableSolana.Solana

/-- The field of a string that starts at `start`. -/
def bytesAt (data : List UInt8) (start length : ℕ) : List UInt8 := (data.drop start).take length

section Languages

def phaseContextOffset : ℕ := 2 + 32

def opaqueCountOffset : ℕ := 2 + 4 * 32 + 7 * 8 + 2 * 32

def payloadLenOffset : ℕ := opaqueCountOffset + 2

def payloadOffset : ℕ := payloadLenOffset + 2

def IntentLanguage (data : List UInt8) : Prop :=
  data.length = intentBindingLen ∧ data[0]? = some probeWireVersion ∧
    (data[1]? = some timingSingle ∨ data[1]? = some timingPrepareCommit)

/-- The byte at `index` is one of the three phases. -/
def PhaseAt (data : List UInt8) (index : ℕ) : Prop :=
  data[index]? = some phaseTransition ∨ data[index]? = some phasePrepare ∨
    data[index]? = some phaseCommit

structure ExecutionLanguage (data : List UInt8) : Prop where
  length : data.length = executionBindingLen
  version : data[0]? = some probeWireVersion
  phase : PhaseAt data 1
  context : bytesAt data phaseContextOffset 32 ≠ List.replicate 32 0 ↔ data[1]? = some phaseCommit
  count : ofLe (bytesAt data opaqueCountOffset 2) ≤ maxOpaqueAccounts
  payloadLen : ofLe (bytesAt data payloadLenOffset 2) ≤ maxOpaquePayloadLen
  padding : ∀ byte ∈ data.drop (payloadOffset + ofLe (bytesAt data payloadLenOffset 2)), byte = 0

def RequestLanguage [Crypto] (data : List UInt8) : Prop :=
  data.length = engineRequestLen ∧ ExecutionLanguage (data.take executionBindingLen) ∧
    data.drop executionBindingLen =
      (hashv [executionHashDomain, data.take executionBindingLen]).toList

def InstructionLanguage [Crypto] (data : List UInt8) : Prop :=
  data.length = engineInstructionLen ∧ RequestLanguage (data.drop 8) ∧
    (data[9]? = some phaseTransition ∧ data.take 8 = engineTransitionDiscriminator.toList ∨
      data[9]? = some phasePrepare ∧ data.take 8 = enginePrepareDiscriminator.toList ∨
      data[9]? = some phaseCommit ∧ data.take 8 = engineCommitDiscriminator.toList)

def ReceiptLanguage (data : List UInt8) : Prop :=
  data.length = engineReceiptLen ∧ data.take 8 = receiptMagic.toList ∧
    data[8]? = some probeWireVersion ∧ PhaseAt data 9

def SettlementLanguage (data : List UInt8) : Prop :=
  data.length = settlementBindingLen ∧ data[0]? = some probeWireVersion

end Languages

section Positions

private theorem executionCodec_enc (b : ExecutionBinding) :
    executionCodec.enc b = probeWireVersion :: b.phase :: (b.intentDigest.toList ++
      (b.phaseContextDigest.toList ++ (b.market.toList ++ (b.domain.toList ++
      ((u64LeBytes b.engineRevision).toList ++ ((u64LeBytes b.amountIn).toList ++
      ((u64LeBytes b.protocolFee).toList ++ ((u64LeBytes b.accountedInputBefore).toList ++
      ((u64LeBytes b.accountedOutputBefore).toList ++ ((u64LeBytes b.accountedFeeBefore).toList ++
      ((u64LeBytes b.preSequence).toList ++ (b.authorizedCapabilityHash.toList ++
      (b.phaseCapabilityHash.toList ++ ((u16LeBytes b.opaqueAccountCount).toList ++
      ((u16LeBytes b.payloadLen).toList ++ b.payload.toList))))))))))))))) := rfl

private theorem executionCodec_context (b : ExecutionBinding) :
    bytesAt (executionCodec.enc b) phaseContextOffset 32 = b.phaseContextDigest.toList := by
  rw [executionCodec_enc, bytesAt, phaseContextOffset]
  simp (disch := omega) [Bytes.drop_append, Bytes.take_append]

private theorem executionCodec_count (b : ExecutionBinding) :
    bytesAt (executionCodec.enc b) opaqueCountOffset 2 = (u16LeBytes b.opaqueAccountCount).toList := by
  rw [executionCodec_enc, bytesAt, opaqueCountOffset]
  simp (disch := omega) [Bytes.drop_append, Bytes.take_append]

private theorem executionCodec_payloadLen (b : ExecutionBinding) :
    bytesAt (executionCodec.enc b) payloadLenOffset 2 = (u16LeBytes b.payloadLen).toList := by
  rw [executionCodec_enc, bytesAt, payloadLenOffset, opaqueCountOffset]
  simp (disch := omega) [Bytes.drop_append, Bytes.take_append]

private theorem executionCodec_payload (b : ExecutionBinding) :
    (executionCodec.enc b).drop payloadOffset = b.payload.toList := by
  rw [executionCodec_enc, payloadOffset, payloadLenOffset, opaqueCountOffset]
  simp (disch := omega) [Bytes.drop_append]

end Positions

section Acceptance

variable {α : Type} {data : List UInt8}

theorem versionCodec_pair_accepts_iff (c : Codec CodecError α) :
    (versionCodec.pair c).Accepts data ↔
      data[0]? = some probeWireVersion ∧ c.Accepts (data.drop 1) := by
  have hversion : ∀ data, versionCodec.Accepts data ↔ data = [probeWireVersion] :=
    fun _ => Codec.literal_accepts_iff _ _ _ _ _
  have hwidth : versionCodec.width = 1 := rfl
  rw [Codec.pair_accepts_iff, hversion, hwidth]
  refine and_congr_left fun _ => ?_
  cases data with
  | nil => simp
  | cons byte rest => simp

theorem magicCodec_pair_accepts_iff (magic : Bytes 8) (c : Codec CodecError α) :
    ((magicCodec magic).pair c).Accepts data ↔
      data.take 8 = magic.toList ∧ c.Accepts (data.drop 8) := by
  have hmagic : ∀ data, (magicCodec magic).Accepts data ↔ data = magic.toList :=
    fun _ => Codec.literal_accepts_iff _ _ _ _ _
  rw [Codec.pair_accepts_iff, hmagic]
  rfl

theorem guardedByte_pair_accepts_iff (p : UInt8 → Except CodecError Unit) (c : Codec CodecError α) :
    ((Codec.u8.guard p).pair c).Accepts data ↔
      (∃ byte, data[0]? = some byte ∧ p byte = .ok ()) ∧ c.Accepts (data.drop 1) := by
  rw [Codec.pair_accepts_iff]
  refine and_congr_left fun _ => ?_
  have hwidth : (Codec.u8.guard p).width = 1 := rfl
  rw [Codec.guard_u8_accepts_iff, hwidth]
  cases data with
  | nil => simp
  | cons byte rest => simp

theorem requireTimingMode_ok_iff {actual : UInt8} :
    requireTimingMode actual = .ok () ↔ actual = timingSingle ∨ actual = timingPrepareCommit := by
  unfold requireTimingMode
  rw [require_ok_iff]

theorem requirePhase_ok_iff {actual : UInt8} : requirePhase actual = .ok () ↔
    actual = phaseTransition ∨ actual = phasePrepare ∨ actual = phaseCommit := by
  unfold requirePhase
  rw [require_ok_iff]

/-- A check of one byte that lets a set of values through, seen at a position. -/
theorem exists_byte_or {index : ℕ} {a b : UInt8} :
    (∃ byte, data[index]? = some byte ∧ (byte = a ∨ byte = b)) ↔
      data[index]? = some a ∨ data[index]? = some b := by
  constructor
  · rintro ⟨byte, hbyte, rfl | rfl⟩
    · exact .inl hbyte
    · exact .inr hbyte
  · rintro (h | h)
    · exact ⟨a, h, .inl rfl⟩
    · exact ⟨b, h, .inr rfl⟩

private theorem phaseAt_iff {index : ℕ} :
    PhaseAt data index ↔ ∃ phase, data[index]? = some phase ∧ requirePhase phase = .ok () := by
  simp only [requirePhase_ok_iff, PhaseAt]
  constructor
  · rintro (h | h | h)
    · exact ⟨_, h, .inl rfl⟩
    · exact ⟨_, h, .inr (.inl rfl)⟩
    · exact ⟨_, h, .inr (.inr rfl)⟩
  · rintro ⟨phase, hphase, rfl | rfl | rfl⟩
    · exact .inl hphase
    · exact .inr (.inl hphase)
    · exact .inr (.inr hphase)

private theorem getElem?_length_pos {index : ℕ} {byte : UInt8} (h : data[index]? = some byte) :
    index < data.length := (List.getElem?_eq_some_iff.mp h).1

theorem intentCodec_accepts_iff : intentCodec.Accepts data ↔ IntentLanguage data := by
  unfold intentCodec IntentLanguage
  rw [Codec.map_accepts_iff, versionCodec_pair_accepts_iff, guardedByte_pair_accepts_iff,
    Codec.Total.accepts_iff]
  · simp only [requireTimingMode_ok_iff, exists_byte_or, List.getElem?_drop, List.length_drop]
    constructor
    · rintro ⟨hversion, htiming, hlen⟩
      have hrest : data.length - 1 - 1 = intentBindingLen - 2 := hlen
      have hpos := getElem?_length_pos hversion
      have hlong : 2 < intentBindingLen := by decide
      exact ⟨by omega, hversion, htiming⟩
    · rintro ⟨hlen, hversion, htiming⟩
      have hrest : data.length - 1 - 1 = intentBindingLen - 2 := by omega
      exact ⟨hversion, htiming, hrest⟩
  · repeat' first | exact Codec.bytes_total 32 | exact Codec.u64_total | apply Codec.pair_total

theorem receiptCodec_accepts_iff : receiptCodec.Accepts data ↔ ReceiptLanguage data := by
  unfold receiptCodec ReceiptLanguage
  rw [Codec.map_accepts_iff, magicCodec_pair_accepts_iff, versionCodec_pair_accepts_iff,
    guardedByte_pair_accepts_iff, Codec.Total.accepts_iff, phaseAt_iff]
  · simp only [List.getElem?_drop, List.length_drop]
    constructor
    · rintro ⟨hmagic, hversion, hphase, hlen⟩
      have hrest : data.length - 8 - 1 - 1 = engineReceiptLen - 10 := hlen
      have hpos := getElem?_length_pos hversion
      have hlong : 10 < engineReceiptLen := by decide
      exact ⟨by omega, hmagic, hversion, hphase⟩
    · rintro ⟨hlen, hmagic, hversion, hphase⟩
      have hrest : data.length - 8 - 1 - 1 = engineReceiptLen - 10 := by omega
      exact ⟨hmagic, hversion, hphase, hrest⟩
  · repeat' first | exact Codec.bytes_total 32 | exact Codec.u64_total | apply Codec.pair_total

/-- A total codec behind a version byte constrains nothing but the length. -/
theorem versioned_accepts_iff {c : Codec CodecError α} (h : c.Total) :
    (versionCodec.pair c).Accepts data ↔
      data.length = 1 + c.width ∧ data[0]? = some probeWireVersion := by
  rw [versionCodec_pair_accepts_iff, h.accepts_iff, List.length_drop]
  constructor
  · rintro ⟨hversion, hlen⟩
    have hpos := getElem?_length_pos hversion
    exact ⟨by omega, hversion⟩
  · rintro ⟨hlen, hversion⟩
    exact ⟨hversion, by omega⟩

theorem settlementCodec_accepts_iff : settlementCodec.Accepts data ↔ SettlementLanguage data := by
  unfold settlementCodec SettlementLanguage
  rw [Codec.map_accepts_iff, versioned_accepts_iff]
  · rfl
  · repeat' first | exact Codec.bytes_total 32 | exact Codec.u64_total | apply Codec.pair_total

theorem executionCodec_accepts_iff : executionCodec.Accepts data ↔
    data.length = executionBindingLen ∧ data[0]? = some probeWireVersion := by
  unfold executionCodec
  rw [Codec.map_accepts_iff, versioned_accepts_iff]
  · rfl
  · repeat' first
      | exact Codec.u8_total
      | exact Codec.bytes_total _
      | exact Codec.u16_total
      | exact Codec.u64_total
      | apply Codec.pair_total

theorem validatePayload_ok_iff {payloadLen : UInt16} {payload : Bytes maxOpaquePayloadLen} :
    validatePayload payloadLen payload = .ok () ↔ payloadLen.toNat ≤ maxOpaquePayloadLen ∧
      ∀ byte ∈ payload.toList.drop payloadLen.toNat, byte = 0 := by
  unfold validatePayload
  simp only [except_bind_ok_iff, require_ok_iff, List.any_eq_true, decide_eq_true_eq, not_exists,
    not_and, not_not, exists_const]

theorem validateExecutionBinding_ok_iff {b : ExecutionBinding} :
    validateExecutionBinding b = .ok () ↔ requirePhase b.phase = .ok () ∧
      (b.phaseContextDigest ≠ Bytes.zero 32 ↔ b.phase = phaseCommit) ∧
      b.opaqueAccountCount.toNat ≤ maxOpaqueAccounts ∧ b.payloadLen.toNat ≤ maxOpaquePayloadLen ∧
      ∀ byte ∈ b.payload.toList.drop b.payloadLen.toNat, byte = 0 := by
  unfold validateExecutionBinding
  simp only [except_bind_ok_iff, require_ok_iff, validateOpaqueAccountCount_ok_iff,
    validatePayload_ok_iff]
  constructor
  · rintro ⟨_, hphase, _, hcontext, _, hcount, hlen, hpad⟩
    exact ⟨hphase, hcontext, hcount, hlen, hpad⟩
  · rintro ⟨hphase, hcontext, hcount, hlen, hpad⟩
    exact ⟨(), hphase, (), hcontext, (), hcount, hlen, hpad⟩

private theorem ofLe_u16LeBytes (x : UInt16) : ofLe (u16LeBytes x).toList = x.toNat := by
  have hx : x.toNat < 256 ^ 2 := x.toNat_lt
  simp only [u16LeBytes, ofLe_leBytes, Nat.mod_eq_of_lt hx]

/-- The rules across the fields of a binding, read off its encoding. -/
theorem executionLanguage_enc_iff (b : ExecutionBinding) :
    ExecutionLanguage (executionCodec.enc b) ↔ validateExecutionBinding b = .ok () := by
  have hphase : (executionCodec.enc b)[1]? = some b.phase := rfl
  have hcontext : b.phaseContextDigest.toList ≠ List.replicate 32 0 ↔
      b.phaseContextDigest ≠ Bytes.zero 32 :=
    not_congr (Bytes.toList_injective.eq_iff (a := b.phaseContextDigest) (b := Bytes.zero 32))
  have hpayload : (executionCodec.enc b).drop (payloadOffset + b.payloadLen.toNat) =
      b.payload.toList.drop b.payloadLen.toNat := by
    rw [← List.drop_drop, executionCodec_payload]
  rw [validateExecutionBinding_ok_iff]
  constructor
  · rintro ⟨-, -, hp, hc, hcount, hlen, hpad⟩
    rw [executionCodec_context, hcontext, hphase, Option.some_inj] at hc
    rw [executionCodec_count, ofLe_u16LeBytes] at hcount
    rw [executionCodec_payloadLen, ofLe_u16LeBytes] at hlen hpad
    rw [hpayload] at hpad
    obtain ⟨phase, hbyte, hknown⟩ := phaseAt_iff.mp hp
    rw [hphase, Option.some_inj] at hbyte
    exact ⟨hbyte ▸ hknown, hc, hcount, hlen, hpad⟩
  · rintro ⟨hknown, hc, hcount, hlen, hpad⟩
    refine ⟨executionCodec.length_enc b, rfl, phaseAt_iff.mpr ⟨_, hphase, hknown⟩, ?_, ?_, ?_, ?_⟩
    · rwa [executionCodec_context, hcontext, hphase, Option.some_inj]
    · rwa [executionCodec_count, ofLe_u16LeBytes]
    · rwa [executionCodec_payloadLen, ofLe_u16LeBytes]
    · rwa [executionCodec_payloadLen, ofLe_u16LeBytes, hpayload]

private theorem executionLanguage_iff : ExecutionLanguage data ↔
    ∃ b, validateExecutionBinding b = .ok () ∧ data = executionCodec.enc b := by
  constructor
  · intro h
    obtain ⟨b, -, rfl⟩ := executionCodec_accepts_iff.mpr ⟨h.length, h.version⟩
    exact ⟨b, (executionLanguage_enc_iff b).mp h, rfl⟩
  · rintro ⟨b, hv, rfl⟩
    exact (executionLanguage_enc_iff b).mpr hv

end Acceptance

section Formats

theorem intentFormat : ExactFormat intentBindingLen encodeIntentBinding decodeIntentBinding := by
  refine intentCodec.exactFormat rfl (fun data => .invalidLength intentBindingLen data.length)
    encodeIntentBinding_ok_iff ?_ ?_
  · intro b
    rw [encodeIntentBinding_eq]
    exact mapError_bind_ok_ne_outOfBounds
  · intro data
    rw [decodeIntentBinding, readIntentBinding_eq, requireLength]

theorem receiptFormat : ExactFormat engineReceiptLen encodeReceipt decodeReceipt := by
  refine receiptCodec.exactFormat rfl (fun data => .invalidLength engineReceiptLen data.length)
    encodeReceipt_ok_iff ?_ ?_
  · intro r
    rw [encodeReceipt_eq]
    exact mapError_bind_ok_ne_outOfBounds
  · intro data
    rw [decodeReceipt, readReceipt_eq, requireLength]

theorem settlementFormat :
    ExactFormat settlementBindingLen encodeSettlementBinding decodeSettlementBinding := by
  refine settlementCodec.exactFormat rfl
    (fun data => .invalidLength settlementBindingLen data.length)
    encodeSettlementBinding_ok_iff ?_ ?_
  · intro b
    simp [encodeSettlementBinding_eq]
  · intro data
    rw [decodeSettlementBinding, readSettlementBinding_eq, requireLength]

theorem executionFormat :
    ExactFormat executionBindingLen encodeExecutionBinding decodeExecutionBinding := by
  refine (executionCodec.guard validateExecutionBinding).exactFormat rfl
    (fun data => .invalidLength executionBindingLen data.length) ?_ ?_ ?_
  · intro b data
    rw [encodeExecutionBinding_ok_iff, Codec.guard_valid_iff]
    simp only [executionCodec_valid, true_and]
    rfl
  · intro b
    rw [encodeExecutionBinding_eq]
    exact mapError_bind_ok_ne_outOfBounds
  · intro data
    rw [decodeExecutionBinding, readExecutionBinding_eq, requireLength, Codec.guard_decode]

theorem executionBinding_accepted_iff {data : List UInt8} :
    (∃ b, decodeExecutionBinding data = .ok b) ↔ ExecutionLanguage data := by
  simp only [executionLanguage_iff, decodeExecutionBinding_ok_iff, encodeExecutionBinding_ok_iff]

variable [Crypto]

private theorem validateEngineRequest_ne_outOfBounds (r : EngineRequest) :
    validateEngineRequest r ≠ .error .outOfBounds := by
  intro h
  have hencode := executionFormat.encode_inBounds r.binding
  unfold validateEngineRequest computeExecutionDigest at h
  rcases except_bind_error_iff.mp h with h | ⟨digest, -, h⟩
  · rcases except_bind_error_iff.mp h with h | ⟨encoded, -, h⟩
    · exact hencode h
    · cases h
  · simp at h

theorem requestFormat : ExactFormat engineRequestLen encodeEngineRequest decodeEngineRequest where
  decode_ok_iff := decodeEngineRequest_ok_iff
  length := encodeEngineRequest_length
  encode_inBounds := by
    intro r h
    unfold encodeEngineRequest at h
    rcases except_bind_error_iff.mp h with h | ⟨_, -, h⟩
    · exact validateEngineRequest_ne_outOfBounds r h
    · rcases except_bind_error_iff.mp h with h | ⟨encoded, hencoded, h⟩
      · exact executionFormat.encode_inBounds r.binding h
      · have hlen := encodeExecutionBinding_length hencoded
        rw [fill_putAll (by simp [hlen, engineRequestLen])] at h
        cases h
  decode_inBounds := by
    intro data h
    unfold decodeEngineRequest requireLength at h
    rcases except_bind_error_iff.mp h with h | ⟨_, hlen, h⟩
    · simp at h
    · rw [require_ok_iff] at hlen
      rcases except_bind_error_iff.mp h with h | ⟨b, -, h⟩
      · exact executionFormat.decode_inBounds _ h
      · rcases except_bind_error_iff.mp h with h | ⟨digest, -, h⟩
        · have hdrop : (data.drop executionBindingLen).length = 32 := by
            rw [List.length_drop, hlen]
            rfl
          rw [copyFromSlice, dif_pos hdrop] at h
          cases h
        · rcases except_bind_error_iff.mp h with h | ⟨_, -, h⟩
          · exact validateEngineRequest_ne_outOfBounds _ h
          · cases h

theorem validateEngineRequest_ok_iff {r : EngineRequest} : validateEngineRequest r = .ok () ↔
    validateExecutionBinding r.binding = .ok () ∧
      r.executionDigest = hashv [executionHashDomain, executionCodec.enc r.binding] := by
  unfold validateEngineRequest computeExecutionDigest
  simp only [except_bind_ok_iff, encodeExecutionBinding_ok_iff, except_pure_ok_iff, require_ok_iff]
  constructor
  · rintro ⟨_, ⟨_, ⟨hv, rfl⟩, rfl⟩, hdigest⟩
    exact ⟨hv, hdigest⟩
  · rintro ⟨hv, hdigest⟩
    exact ⟨_, ⟨_, ⟨hv, rfl⟩, rfl⟩, hdigest⟩

private theorem encodeEngineRequest_eq_iff {r : EngineRequest} {data : List UInt8} :
    encodeEngineRequest r = .ok data ↔ validateExecutionBinding r.binding = .ok () ∧
      r.executionDigest = hashv [executionHashDomain, executionCodec.enc r.binding] ∧
      data = executionCodec.enc r.binding ++ r.executionDigest.toList := by
  rw [encodeEngineRequest_ok_iff, validateEngineRequest_ok_iff]
  simp only [encodeExecutionBinding_ok_iff]
  constructor
  · rintro ⟨⟨hv, hdigest⟩, _, ⟨-, rfl⟩, hdata⟩
    exact ⟨hv, hdigest, hdata⟩
  · rintro ⟨hv, hdigest, hdata⟩
    exact ⟨⟨hv, hdigest⟩, _, ⟨hv, rfl⟩, hdata⟩

theorem engineRequest_accepted_iff {data : List UInt8} :
    (∃ r, decodeEngineRequest data = .ok r) ↔ RequestLanguage data := by
  simp only [decodeEngineRequest_ok_iff, encodeEngineRequest_eq_iff]
  constructor
  · rintro ⟨r, hv, hdigest, rfl⟩
    have hlen : (executionCodec.enc r.binding).length = executionBindingLen :=
      executionCodec.length_enc r.binding
    refine ⟨?_, ?_, ?_⟩
    · rw [List.length_append, hlen, r.executionDigest.length_toList]
      rfl
    · rw [List.take_left' hlen]
      exact (executionLanguage_enc_iff r.binding).mpr hv
    · rw [List.take_left' hlen, List.drop_left' hlen, hdigest]
  · rintro ⟨-, hbinding, hdigest⟩
    obtain ⟨b, hv, hb⟩ := executionLanguage_iff.mp hbinding
    refine ⟨⟨b, hashv [executionHashDomain, executionCodec.enc b]⟩, hv, rfl, ?_⟩
    rw [← hb, ← hdigest, List.take_append_drop]

private theorem encodeEngineInstruction_length {r : EngineRequest} {data : List UInt8}
    (h : encodeEngineInstruction r = .ok data) : data.length = engineInstructionLen := by
  obtain ⟨encoded, discriminator, hencoded, -, rfl⟩ := encodeEngineInstruction_ok_iff.mp h
  rw [List.length_append, discriminator.length_toList, encodeEngineRequest_length hencoded]
  rfl

omit [Crypto] in
private theorem mapError_codec_ne_outOfBounds {α : Type} {x : Except CodecError α} :
    x.mapError Fault.codec ≠ .error .outOfBounds := by
  cases x <;> simp [Except.mapError]

theorem instructionFormat :
    ExactFormat engineInstructionLen encodeEngineInstruction decodeEngineInstruction where
  decode_ok_iff := decodeEngineInstruction_ok_iff
  length := encodeEngineInstruction_length
  encode_inBounds := by
    intro r h
    unfold encodeEngineInstruction at h
    rcases except_bind_error_iff.mp h with h | ⟨encoded, hencoded, h⟩
    · exact requestFormat.encode_inBounds r h
    · rcases except_bind_error_iff.mp h with h | ⟨discriminator, -, h⟩
      · exact mapError_codec_ne_outOfBounds h
      · have hlen := encodeEngineRequest_length hencoded
        rw [fill_putAll (by simp [hlen, engineInstructionLen])] at h
        cases h
  decode_inBounds := by
    intro data h
    unfold decodeEngineInstruction requireLength at h
    rcases except_bind_error_iff.mp h with h | ⟨_, -, h⟩
    · simp at h
    · rcases except_bind_error_iff.mp h with h | ⟨r, -, h⟩
      · exact requestFormat.decode_inBounds _ h
      · rcases except_bind_error_iff.mp h with h | ⟨discriminator, -, h⟩
        · exact mapError_codec_ne_outOfBounds h
        · rcases except_bind_error_iff.mp h with h | ⟨_, -, h⟩
          · simp at h
          · cases h

private theorem encodeEngineRequest_phase {r : EngineRequest} {data : List UInt8}
    (h : encodeEngineRequest r = .ok data) : data[1]? = some r.binding.phase := by
  obtain ⟨-, -, rfl⟩ := encodeEngineRequest_eq_iff.mp h
  rfl

theorem engineInstruction_accepted_iff {data : List UInt8} :
    (∃ r, decodeEngineInstruction data = .ok r) ↔ InstructionLanguage data := by
  unfold InstructionLanguage
  simp only [decodeEngineInstruction_ok_iff, ← engineRequest_accepted_iff,
    decodeEngineRequest_ok_iff]
  have hphase : data[9]? = (data.drop 8)[1]? := by rw [List.getElem?_drop]
  constructor
  · rintro ⟨r, hr⟩
    have hlen := encodeEngineInstruction_length hr
    obtain ⟨encoded, discriminator, hencoded, hdisc, hdata⟩ := encodeEngineInstruction_ok_iff.mp hr
    have hdrop : data.drop 8 = encoded := by
      rw [hdata, List.drop_left' discriminator.length_toList]
    have htake : data.take 8 = discriminator.toList := by
      rw [hdata, List.take_left' discriminator.length_toList]
    rw [hphase, hdrop, htake, encodeEngineRequest_phase hencoded]
    refine ⟨hlen, ⟨r, hencoded⟩, ?_⟩
    rcases enginePhaseDiscriminator_ok_iff.mp hdisc with ⟨hp, hd⟩ | ⟨hp, hd⟩ | ⟨hp, hd⟩
    · exact .inl ⟨congrArg some hp, congrArg Bytes.toList hd⟩
    · exact .inr (.inl ⟨congrArg some hp, congrArg Bytes.toList hd⟩)
    · exact .inr (.inr ⟨congrArg some hp, congrArg Bytes.toList hd⟩)
  · rintro ⟨-, ⟨r, hencoded⟩, hdisc⟩
    rw [hphase, encodeEngineRequest_phase hencoded] at hdisc
    simp only [Option.some_inj] at hdisc
    obtain ⟨discriminator, htake, hdisc⟩ : ∃ discriminator : Bytes 8,
        data.take 8 = discriminator.toList ∧
          enginePhaseDiscriminator r.binding.phase = .ok discriminator := by
      simp only [enginePhaseDiscriminator_ok_iff]
      rcases hdisc with ⟨hp, htake⟩ | ⟨hp, htake⟩ | ⟨hp, htake⟩
      · exact ⟨_, htake, .inl ⟨hp, rfl⟩⟩
      · exact ⟨_, htake, .inr (.inl ⟨hp, rfl⟩)⟩
      · exact ⟨_, htake, .inr (.inr ⟨hp, rfl⟩)⟩
    refine ⟨r, encodeEngineInstruction_ok_iff.mpr ⟨_, discriminator, hencoded, hdisc, ?_⟩⟩
    rw [← htake, List.take_append_drop]

/-- Decoding accepts exactly the encodings in each of the six formats, the accepted strings are the
named languages, no index leaves its buffer and every reader stops at the end. -/
theorem codecs_exact :
    (ExactFormat intentBindingLen encodeIntentBinding decodeIntentBinding ∧
      (∀ data, (∃ b, decodeIntentBinding data = .ok b) ↔ IntentLanguage data) ∧
      EndsAt readIntentBinding intentBindingLen) ∧
    (ExactFormat executionBindingLen encodeExecutionBinding decodeExecutionBinding ∧
      (∀ data, (∃ b, decodeExecutionBinding data = .ok b) ↔ ExecutionLanguage data) ∧
      EndsAt readExecutionBinding executionBindingLen) ∧
    (ExactFormat engineRequestLen encodeEngineRequest decodeEngineRequest ∧
      ∀ data, (∃ r, decodeEngineRequest data = .ok r) ↔ RequestLanguage data) ∧
    (ExactFormat engineInstructionLen encodeEngineInstruction decodeEngineInstruction ∧
      ∀ data, (∃ r, decodeEngineInstruction data = .ok r) ↔ InstructionLanguage data) ∧
    (ExactFormat engineReceiptLen encodeReceipt decodeReceipt ∧
      (∀ data, (∃ r, decodeReceipt data = .ok r) ↔ ReceiptLanguage data) ∧
      EndsAt readReceipt engineReceiptLen) ∧
    ExactFormat settlementBindingLen encodeSettlementBinding decodeSettlementBinding ∧
      (∀ data, (∃ b, decodeSettlementBinding data = .ok b) ↔ SettlementLanguage data) ∧
      EndsAt readSettlementBinding settlementBindingLen := by
  refine ⟨⟨intentFormat, ?_, intentCodec.endsAt rfl readIntentBinding_eq⟩,
    ⟨executionFormat, fun _ => executionBinding_accepted_iff,
      executionCodec.endsAt rfl readExecutionBinding_eq⟩,
    ⟨requestFormat, fun _ => engineRequest_accepted_iff⟩,
    ⟨instructionFormat, fun _ => engineInstruction_accepted_iff⟩,
    ⟨receiptFormat, ?_, receiptCodec.endsAt rfl readReceipt_eq⟩,
    settlementFormat, ?_, settlementCodec.endsAt rfl readSettlementBinding_eq⟩
  · intro data
    rw [intentFormat.accepted_iff intentCodec encodeIntentBinding_ok_iff, intentCodec_accepts_iff]
  · intro data
    rw [receiptFormat.accepted_iff receiptCodec encodeReceipt_ok_iff, receiptCodec_accepts_iff]
  · intro data
    rw [settlementFormat.accepted_iff settlementCodec encodeSettlementBinding_ok_iff,
      settlementCodec_accepts_iff]

end Formats

section Sample

/-- Every digest is zero. -/
@[reducible]
def sampleCrypto : Crypto := .ofKnown [] []

attribute [local instance] sampleCrypto

/-- A commit of 100 tokens for an engine at sequence 1. -/
def sampleBinding : ExecutionBinding where
  phase := phaseCommit
  intentDigest := Bytes.zero 32
  phaseContextDigest := ⟨List.replicate 32 1, rfl⟩
  market := Bytes.zero 32
  domain := Bytes.zero 32
  engineRevision := 1
  amountIn := 100
  protocolFee := 1
  accountedInputBefore := 1000
  accountedOutputBefore := 2000
  accountedFeeBefore := 0
  preSequence := 1
  authorizedCapabilityHash := Bytes.zero 32
  phaseCapabilityHash := Bytes.zero 32
  opaqueAccountCount := 3
  payloadLen := 2
  payload := .zero maxOpaquePayloadLen

/-- The request for it is read back from its instruction, which is in the language. -/
theorem codecs_exact_sample : ∃ r data, EngineRequest.new sampleBinding = .ok r ∧
    encodeEngineInstruction r = .ok data ∧ decodeEngineInstruction data = .ok r ∧
    InstructionLanguage data := by
  obtain ⟨r, data, hr, hdata⟩ :=
    engineRequest_new_succeeds (b := sampleBinding) (by decide +kernel)
  obtain ⟨-, -, -, ⟨hformat, hlanguage⟩, -⟩ := codecs_exact
  have hdecode := hformat.decode_ok_iff.mpr hdata
  exact ⟨r, data, hr, hdata, hdecode, (hlanguage data).mp ⟨r, hdecode⟩⟩

end Sample

end ProgrammableSolana.Wire.Routed
