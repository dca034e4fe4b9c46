import Mathlib.Algebra.BigOperators.Finprod

/-! Checked machine arithmetic: `None` exactly where the exact result does not fit. -/
namespace ProgrammableSolana.Lib

/-- `u64::checked_add`. -/
def checkedAdd (a b : UInt64) : Option UInt64 :=
  if a.toNat + b.toNat < 2 ^ 64 then some (a + b) else none

/-- `u64::checked_sub`. -/
def checkedSub (a b : UInt64) : Option UInt64 := if b ≤ a then some (a - b) else none

/-- `u128::checked_add`; a `u128` is a natural number below `2 ^ 128`. -/
def checkedAdd128 (a b : ℕ) : Option ℕ := if a + b < 2 ^ 128 then some (a + b) else none

/-- `u128::checked_sub`. -/
def checkedSub128 (a b : ℕ) : Option ℕ := if b ≤ a then some (a - b) else none

/-- `u128::checked_mul`. -/
def checkedMul128 (a b : ℕ) : Option ℕ := if a * b < 2 ^ 128 then some (a * b) else none

/-- `u128::checked_div`. -/
def checkedDiv128 (a b : ℕ) : Option ℕ := if b = 0 then none else some (a / b)

/-- `u64::try_from` on a `u128`. -/
def u64TryFrom (a : ℕ) : Option UInt64 := if a < 2 ^ 64 then some (UInt64.ofNat a) else none

theorem toNat_add_of_fits {a b : UInt64} (h : a.toNat + b.toNat < 2 ^ 64) :
    (a + b).toNat = a.toNat + b.toNat := by
  rw [UInt64.toNat_add, Nat.mod_eq_of_lt h]

theorem checkedAdd_eq_some {a b c : UInt64} :
    checkedAdd a b = some c ↔ c.toNat = a.toNat + b.toNat := by
  unfold checkedAdd
  split
  · next h =>
    rw [Option.some.injEq, ← UInt64.toNat_inj, UInt64.toNat_add, Nat.mod_eq_of_lt h, eq_comm]
  · next h =>
    have hc : c.toNat < 2 ^ 64 := c.toNat_lt
    simp only [reduceCtorEq, false_iff]
    omega

theorem checkedSub_eq_some {a b c : UInt64} :
    checkedSub a b = some c ↔ a.toNat = c.toNat + b.toNat := by
  unfold checkedSub
  split
  · next h =>
    have hle : b.toNat ≤ a.toNat := UInt64.le_iff_toNat_le.mp h
    rw [Option.some.injEq, ← UInt64.toNat_inj, UInt64.toNat_sub_of_le _ _ h]
    omega
  · next h =>
    rw [UInt64.le_iff_toNat_le] at h
    simp only [reduceCtorEq, false_iff]
    omega

theorem u64TryFrom_eq_some {a : ℕ} {c : UInt64} : u64TryFrom a = some c ↔ c.toNat = a := by
  unfold u64TryFrom
  split
  · next h =>
    rw [Option.some.injEq, ← UInt64.toNat_inj, UInt64.toNat_ofNat', Nat.mod_eq_of_lt h, eq_comm]
  · next h =>
    have hc : c.toNat < 2 ^ 64 := c.toNat_lt
    simp only [reduceCtorEq, false_iff]
    omega

/-- No product of two machine words leaves the `u128` range. -/
theorem checkedMul128_words {a b : ℕ} (ha : a < 2 ^ 64) (hb : b < 2 ^ 64) :
    checkedMul128 a b = some (a * b) := by
  have hmul : a * b < 2 ^ 64 * 2 ^ 64 := Nat.mul_lt_mul'' ha hb
  exact if_pos (by omega)

theorem checkedAdd128_words {a b : ℕ} (ha : a < 2 ^ 64) (hb : b < 2 ^ 64) :
    checkedAdd128 a b = some (a + b) :=
  if_pos (by omega)

theorem u64TryFrom_of_lt {a : ℕ} (h : a < 2 ^ 64) : u64TryFrom a = some (UInt64.ofNat a) :=
  if_pos h

theorem toNat_ofNat_of_lt {a : ℕ} (h : a < 2 ^ 64) : (UInt64.ofNat a).toNat = a := by
  rw [UInt64.toNat_ofNat', Nat.mod_eq_of_lt h]

@[simp] theorem checkedDiv128_of_pos {a b : ℕ} (hb : 0 < b) : checkedDiv128 a b = some (a / b) :=
  if_neg (by omega)

end ProgrammableSolana.Lib
