import ProgrammableSolana.Lib.Codec
import ProgrammableSolana.Solana.Address

/-! What the wire crates of the three Cores have in common: versions, lengths, capability
descriptors and opaque payloads. -/
namespace ProgrammableSolana.Wire

open ProgrammableSolana.Lib ProgrammableSolana.Solana

def probeWireVersion : UInt8 := 0

/-- The first bytes of `sha256("global:evaluate")`. -/
def evaluateDiscriminator : Bytes 8 := ⟨[0xb3, 0xd3, 0x8e, 0xb7, 0x6c, 0x68, 0x14, 0xd6], rfl⟩

/-- One list of error names; each crate uses the ones its own source declares. -/
inductive CodecError where
  | invalidLength (expected actual : ℕ)
  | invalidDiscriminator
  | invalidMagic
  | unsupportedVersion (expected actual : UInt8)
  | unsupportedTimingMode (actual : UInt8)
  | unsupportedPhase (actual : UInt8)
  | invalidPhaseForTiming (timingMode phase : UInt8)
  | tooManyCapabilityDescriptors (maximum actual : ℕ)
  | invalidOpaqueAccountCount (maximum actual : UInt16)
  | payloadTooLong (maximum actual : ℕ)
  | invalidPayloadLength (maximum actual : UInt16)
  | nonCanonicalPayloadPadding
  | invalidPhaseContext (phase : UInt8) (expectedNonzero : Bool)
  | executionDigestMismatch
  deriving DecidableEq, Repr

/-- A wire function's result. `outOfBounds` stands for a panic on an array index. -/
abbrev WireResult : Type → Type := Except (Fault CodecError)

def requireLength (data : List UInt8) (expected : ℕ) : WireResult Unit :=
  require (data.length = expected) (.codec (.invalidLength expected data.length))

def requireVersion (actual : UInt8) : Except CodecError Unit :=
  require (actual = probeWireVersion) (.unsupportedVersion probeWireVersion actual)

def versionCodec : Codec CodecError Unit :=
  Codec.u8.literal probeWireVersion requireVersion trivial (by simp [requireVersion])

def magicCodec (magic : Bytes 8) : Codec CodecError Unit :=
  (Codec.bytes 8).literal magic (fun m => require (m = magic) .invalidMagic) trivial (by simp)

@[simp] theorem versionCodec_valid (u : Unit) : versionCodec.Valid u := trivial

@[simp] theorem magicCodec_valid (magic : Bytes 8) (u : Unit) : (magicCodec magic).Valid u := trivial

section Opaque

def maxOpaqueAccounts : ℕ := 8

def maxOpaquePayloadLen : ℕ := 128

def capabilityFlagsWritable : UInt8 := 1

def capabilityFlagsSigner : UInt8 := 2

structure CapabilityDescriptor where
  key : Pubkey
  owner : Pubkey
  isWritable : Bool
  isSigner : Bool
  isExecutable : Bool
  deriving DecidableEq

def CapabilityDescriptor.privilegeFlags (d : CapabilityDescriptor) : UInt8 :=
  (if d.isWritable then capabilityFlagsWritable else 0) |||
    (if d.isSigner then capabilityFlagsSigner else 0)

/-- One descriptor as it is hashed, its position included. -/
def CapabilityDescriptor.encode (d : CapabilityDescriptor) (index : ℕ) : List UInt8 :=
  (u16LeBytes (UInt16.ofNat index)).toList ++ d.key.toList ++ d.owner.toList ++
    [if d.isExecutable then 1 else 0, d.privilegeFlags]

/-- The bytes a capability hash commits to. -/
def encodedCapabilities (engineProgram : Pubkey) (descriptors : List CapabilityDescriptor) :
    List UInt8 :=
  [probeWireVersion] ++ engineProgram.toList ++
    (u16LeBytes (UInt16.ofNat descriptors.length)).toList ++
    (descriptors.zipIdx.map fun (d, index) => d.encode index).flatten

/-- The bytes a payload hash commits to. -/
def encodedPayload (payload : List UInt8) : List UInt8 :=
  [probeWireVersion] ++ (u16LeBytes (UInt16.ofNat payload.length)).toList ++ payload

/-- `compute_capability_hash`, under a crate's hash domain and limit. -/
def capabilityHash [Crypto] (hashDomain : List UInt8) (maximum : ℕ) (engineProgram : Pubkey)
    (descriptors : List CapabilityDescriptor) : WireResult Hash := do
  require (descriptors.length ≤ maximum)
    (.codec (.tooManyCapabilityDescriptors maximum descriptors.length))
  return hashv [hashDomain, encodedCapabilities engineProgram descriptors]

/-- `compute_payload_hash`, under a crate's hash domain. -/
def payloadHash [Crypto] (hashDomain : List UInt8) (payload : List UInt8) : WireResult Hash := do
  require (payload.length ≤ maxOpaquePayloadLen)
    (.codec (.payloadTooLong maxOpaquePayloadLen payload.length))
  return hashv [hashDomain, encodedPayload payload]

/-- The payload with its length, padded with zeros. -/
def canonicalPayload (payload : List UInt8) : WireResult (UInt16 × Bytes maxOpaquePayloadLen) :=
  if h : payload.length ≤ maxOpaquePayloadLen then
    .ok (UInt16.ofNat payload.length,
      ⟨payload ++ List.replicate (maxOpaquePayloadLen - payload.length) 0, by
        rw [List.length_append, List.length_replicate]
        omega⟩)
  else
    .error (.codec (.payloadTooLong maxOpaquePayloadLen payload.length))

theorem capabilityHash_eq [Crypto] {hashDomain : List UInt8} {maximum : ℕ} {engineProgram : Pubkey}
    {descriptors : List CapabilityDescriptor} (h : descriptors.length ≤ maximum) :
    capabilityHash hashDomain maximum engineProgram descriptors =
      .ok (hashv [hashDomain, encodedCapabilities engineProgram descriptors]) := by
  simp [capabilityHash, require, h, bind, Except.bind, pure, Except.pure]

theorem payloadHash_eq [Crypto] {hashDomain payload : List UInt8}
    (h : payload.length ≤ maxOpaquePayloadLen) :
    payloadHash hashDomain payload = .ok (hashv [hashDomain, encodedPayload payload]) := by
  simp [payloadHash, require, h, bind, Except.bind, pure, Except.pure]

def validateOpaqueAccountCount (actual : UInt16) : Except CodecError Unit :=
  require (actual.toNat ≤ maxOpaqueAccounts)
    (.invalidOpaqueAccountCount (UInt16.ofNat maxOpaqueAccounts) actual)

/-- A payload field is as long as it says, and zero behind that. -/
def validatePayload (payloadLen : UInt16) (payload : Bytes maxOpaquePayloadLen) :
    Except CodecError Unit := do
  require (payloadLen.toNat ≤ maxOpaquePayloadLen)
    (.invalidPayloadLength (UInt16.ofNat maxOpaquePayloadLen) payloadLen)
  require (¬ (payload.toList.drop payloadLen.toNat).any (· ≠ 0)) .nonCanonicalPayloadPadding

theorem validateOpaqueAccountCount_ok_iff {actual : UInt16} {u : Unit} :
    validateOpaqueAccountCount actual = .ok u ↔ actual.toNat ≤ maxOpaqueAccounts := by
  unfold validateOpaqueAccountCount
  rw [require_ok_iff]

/-- A payload that fits is padded to a valid field, and read back from it. -/
theorem canonicalPayload_ok {payload : List UInt8} (h : payload.length ≤ maxOpaquePayloadLen) :
    ∃ payloadLen field, canonicalPayload payload = .ok (payloadLen, field) ∧
      validatePayload payloadLen field = .ok () ∧ field.toList.take payloadLen.toNat = payload := by
  have hlen : (UInt16.ofNat payload.length).toNat = payload.length := by
    rw [UInt16.toNat_ofNat']
    unfold maxOpaquePayloadLen at h
    omega
  refine ⟨UInt16.ofNat payload.length, _, dif_pos h, ?_, ?_⟩
  · simp only [validatePayload, except_bind_ok_iff, require_ok_iff, hlen]
    refine ⟨(), h, ?_⟩
    simp
  · rw [hlen]
    simp

theorem canonicalPayload_valid {payload : List UInt8} {payloadLen : UInt16}
    {field : Bytes maxOpaquePayloadLen} (h : canonicalPayload payload = .ok (payloadLen, field)) :
    validatePayload payloadLen field = .ok () ∧ field.toList.take payloadLen.toNat = payload := by
  by_cases hlen : payload.length ≤ maxOpaquePayloadLen
  · obtain ⟨len, made, hmade, hvalid, htake⟩ := canonicalPayload_ok hlen
    rw [hmade, Except.ok.injEq, Prod.mk.injEq] at h
    obtain ⟨rfl, rfl⟩ := h
    exact ⟨hvalid, htake⟩
  · rw [canonicalPayload, dif_neg hlen] at h
    cases h

end Opaque

end ProgrammableSolana.Wire
