import Mathlib.Algebra.BigOperators.Finprod

/-! Byte strings of a fixed length and little-endian machine words. -/
namespace ProgrammableSolana.Lib

/-- A byte array of length `n`; the length is part of the value. -/
structure Bytes (n : ℕ) where
  toList : List UInt8
  length_eq : toList.length = n
  deriving DecidableEq

namespace Bytes

variable {n : ℕ}

@[simp] theorem length_toList (b : Bytes n) : b.toList.length = n := b.length_eq

@[ext] theorem ext {a b : Bytes n} (h : a.toList = b.toList) : a = b := by
  cases a; cases b; simpa using h

theorem toList_injective : Function.Injective (toList : Bytes n → List UInt8) :=
  fun _ _ => ext

/-- An array in front of a string can be told from the rest. -/
theorem append_inj_iff {a b : Bytes n} {x y : List UInt8} :
    a.toList ++ x = b.toList ++ y ↔ a = b ∧ x = y := by
  constructor
  · intro h
    obtain ⟨hab, hxy⟩ := List.append_inj h (a.length_toList.trans b.length_toList.symm)
    exact ⟨ext hab, hxy⟩
  · rintro ⟨rfl, rfl⟩
    rfl

/-- An array is skipped by dropping its length. -/
theorem drop_append {k : ℕ} (b : Bytes n) (rest : List UInt8) (h : n ≤ k) :
    (b.toList ++ rest).drop k = rest.drop (k - n) := by
  have hlen := b.length_toList
  rw [List.drop_append, hlen, List.drop_eq_nil_of_le (by omega), List.nil_append]

theorem take_append (b : Bytes n) (rest : List UInt8) : (b.toList ++ rest).take n = b.toList :=
  List.take_left' b.length_toList

def zero (n : ℕ) : Bytes n := ⟨List.replicate n 0, List.length_replicate⟩

instance : Inhabited (Bytes n) := ⟨zero n⟩

/-- The array with the byte at `i` changed. -/
def modify (b : Bytes n) (i : ℕ) (f : UInt8 → UInt8) : Bytes n :=
  ⟨b.toList.modify i f, by rw [List.length_modify, b.length_toList]⟩

end Bytes

/-- The bytes of an ASCII byte-string literal. -/
def ascii (s : String) : List UInt8 := s.toList.map fun c => UInt8.ofNat c.toNat

/-- The `k` low bytes of `x`, least significant first. -/
def leBytes : ℕ → ℕ → List UInt8
  | 0, _ => []
  | k + 1, x => UInt8.ofNat (x % 256) :: leBytes k (x / 256)

def ofLe : List UInt8 → ℕ
  | [] => 0
  | b :: bs => b.toNat + 256 * ofLe bs

@[simp] theorem length_leBytes (k x : ℕ) : (leBytes k x).length = k := by
  induction k generalizing x with
  | zero => rfl
  | succ k ih => simp [leBytes, ih]

theorem ofLe_lt (bs : List UInt8) : ofLe bs < 256 ^ bs.length := by
  induction bs with
  | nil => simp [ofLe]
  | cons b bs ih =>
    have hb : b.toNat < 256 := UInt8.toNat_lt b
    simp only [ofLe, List.length_cons, Nat.pow_succ]
    omega

theorem ofLe_leBytes (k x : ℕ) : ofLe (leBytes k x) = x % 256 ^ k := by
  induction k generalizing x with
  | zero => simp [leBytes, ofLe, Nat.mod_one]
  | succ k ih =>
    have hb : (UInt8.ofNat (x % 256)).toNat = x % 256 := by
      rw [UInt8.toNat_ofNat']
      exact Nat.mod_eq_of_lt (Nat.mod_lt _ (by decide))
    rw [leBytes, ofLe, ih, hb, Nat.pow_succ', Nat.mod_mul]

theorem leBytes_ofLe (bs : List UInt8) : leBytes bs.length (ofLe bs) = bs := by
  induction bs with
  | nil => rfl
  | cons b bs ih =>
    have hb : b.toNat < 256 := UInt8.toNat_lt b
    have hm : (b.toNat + 256 * ofLe bs) % 256 = b.toNat := by omega
    have hd : (b.toNat + 256 * ofLe bs) / 256 = ofLe bs := by omega
    simp only [List.length_cons, leBytes, ofLe, hm, hd, ih, UInt8.ofNat_toNat]

/-- `u16::to_le_bytes`. -/
def u16LeBytes (x : UInt16) : Bytes 2 := ⟨leBytes 2 x.toNat, length_leBytes 2 _⟩

/-- `u64::to_le_bytes`. -/
def u64LeBytes (x : UInt64) : Bytes 8 := ⟨leBytes 8 x.toNat, length_leBytes 8 _⟩

def u16FromLeBytes (b : Bytes 2) : UInt16 := UInt16.ofNat (ofLe b.toList)

def u64FromLeBytes (b : Bytes 8) : UInt64 := UInt64.ofNat (ofLe b.toList)

@[simp] theorem u16FromLeBytes_u16LeBytes (x : UInt16) : u16FromLeBytes (u16LeBytes x) = x := by
  have hx : x.toNat < 256 ^ 2 := x.toNat_lt
  simp only [u16FromLeBytes, u16LeBytes, ofLe_leBytes, Nat.mod_eq_of_lt hx, UInt16.ofNat_toNat]

@[simp] theorem u64FromLeBytes_u64LeBytes (x : UInt64) : u64FromLeBytes (u64LeBytes x) = x := by
  have hx : x.toNat < 256 ^ 8 := x.toNat_lt
  simp only [u64FromLeBytes, u64LeBytes, ofLe_leBytes, Nat.mod_eq_of_lt hx, UInt64.ofNat_toNat]

@[simp] theorem u16LeBytes_u16FromLeBytes (b : Bytes 2) : u16LeBytes (u16FromLeBytes b) = b := by
  have hlt : ofLe b.toList < 2 ^ 16 := by simpa using ofLe_lt b.toList
  have hv : (UInt16.ofNat (ofLe b.toList)).toNat = ofLe b.toList := by
    rw [UInt16.toNat_ofNat', Nat.mod_eq_of_lt hlt]
  have h := leBytes_ofLe b.toList
  rw [b.length_toList] at h
  exact Bytes.ext (by simp only [u16LeBytes, u16FromLeBytes, hv, h])

@[simp] theorem u64LeBytes_u64FromLeBytes (b : Bytes 8) : u64LeBytes (u64FromLeBytes b) = b := by
  have hlt : ofLe b.toList < 2 ^ 64 := by simpa using ofLe_lt b.toList
  have hv : (UInt64.ofNat (ofLe b.toList)).toNat = ofLe b.toList := by
    rw [UInt64.toNat_ofNat', Nat.mod_eq_of_lt hlt]
  have h := leBytes_ofLe b.toList
  rw [b.length_toList] at h
  exact Bytes.ext (by simp only [u64LeBytes, u64FromLeBytes, hv, h])

end ProgrammableSolana.Lib
