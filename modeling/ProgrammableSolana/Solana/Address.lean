import ProgrammableSolana.Lib.Bytes

/-! Account addresses and program-derived addresses. -/
namespace ProgrammableSolana.Solana

open ProgrammableSolana.Lib

abbrev Pubkey : Type := Bytes 32

instance : LawfulBEq Pubkey := inferInstance

/-- A `[u8; 32]`: a SHA-256 digest or a caller-chosen identifier. -/
abbrev Hash : Type := Bytes 32

/-- The two primitives the runtime supplies: SHA-256 and the Ed25519 curve test. -/
class Crypto where
  sha256 : List UInt8 → Hash
  onCurve : Pubkey → Bool

/-- The primitives as far as finitely many digests and curve points are known. -/
@[reducible]
def Crypto.ofKnown (digests : List (List UInt8 × Hash)) (points : List Pubkey) : Crypto where
  sha256 message := (digests.lookup message).getD (Bytes.zero 32)
  onCurve key := points.contains key

variable [Crypto]

/-- `solana_sha256_hasher::hashv`: the digest of the concatenated parts. -/
def hashv (parts : List (List UInt8)) : Hash := Crypto.sha256 parts.flatten

def maxSeeds : ℕ := 16

def maxSeedLen : ℕ := 32

def pdaMarker : List UInt8 := ascii "ProgramDerivedAddress"

/-- `Pubkey::create_program_address`. -/
def createProgramAddress (seeds : List (List UInt8)) (programId : Pubkey) : Option Pubkey :=
  if maxSeeds < seeds.length ∨ ∃ seed ∈ seeds, maxSeedLen < seed.length then
    none
  else
    let address := hashv (seeds ++ [programId.toList, pdaMarker])
    if Crypto.onCurve address then none else some address

/-- The bumps from `bump` down to `1`; the first that leads off the curve wins. -/
def findBump (seeds : List (List UInt8)) (programId : Pubkey) : ℕ → Option (Pubkey × UInt8)
  | 0 => none
  | bump + 1 =>
    match createProgramAddress (seeds ++ [[UInt8.ofNat (bump + 1)]]) programId with
    | some address => some (address, UInt8.ofNat (bump + 1))
    | none => findBump seeds programId bump

/-- `Pubkey::find_program_address`; `none` where the source aborts. -/
def findProgramAddress (seeds : List (List UInt8)) (programId : Pubkey) : Option (Pubkey × UInt8) :=
  findBump seeds programId 255

private theorem createProgramAddress_of_findBump {seeds : List (List UInt8)} {programId address : Pubkey}
    {bump : UInt8} {n : ℕ} (h : findBump seeds programId n = some (address, bump)) :
    createProgramAddress (seeds ++ [[bump]]) programId = some address := by
  induction n with
  | zero => cases h
  | succ n ih =>
    rw [findBump] at h
    split at h
    · next a ha =>
      cases h
      exact ha
    · exact ih h

theorem createProgramAddress_of_find {seeds : List (List UInt8)} {programId address : Pubkey}
    {bump : UInt8} (h : findProgramAddress seeds programId = some (address, bump)) :
    createProgramAddress (seeds ++ [[bump]]) programId = some address :=
  createProgramAddress_of_findBump h

theorem createProgramAddress_eq_hashv {seeds : List (List UInt8)} {programId address : Pubkey}
    (h : createProgramAddress seeds programId = some address) :
    address = hashv (seeds ++ [programId.toList, pdaMarker]) := by
  unfold createProgramAddress at h
  split at h
  · cases h
  · simp only [Option.ite_none_left_eq_some, Option.some.injEq] at h
    exact h.2.symm

/-- An address only `programId` can sign for. -/
def IsPda (programId address : Pubkey) : Prop :=
  ∃ seeds, createProgramAddress seeds programId = some address

theorem isPda_of_create {seeds : List (List UInt8)} {programId address : Pubkey}
    (h : createProgramAddress seeds programId = some address) : IsPda programId address :=
  ⟨seeds, h⟩

theorem offCurve_of_isPda {programId address : Pubkey} (h : IsPda programId address) :
    Crypto.onCurve address = false := by
  obtain ⟨seeds, hs⟩ := h
  unfold createProgramAddress at hs
  split at hs
  · cases hs
  · by_cases hc : Crypto.onCurve (hashv (seeds ++ [programId.toList, pdaMarker])) = true
    · simp [hc] at hs
    · simp only [hc, Bool.false_eq_true, if_false, Option.some.injEq] at hs
      rw [← hs]
      simpa using hc

/-- A key that can sign outside the program: a key pair, or an address of another program. -/
structure ExternalSigner (programId : Pubkey) where
  key : Pubkey
  notPda : ¬ IsPda programId key

end ProgrammableSolana.Solana
