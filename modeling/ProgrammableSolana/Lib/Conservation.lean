import Mathlib.Algebra.BigOperators.Finprod

/-! Totals over a finite store: moving an amount between two places keeps the total, and no two
places hold more than it. -/
namespace ProgrammableSolana.Lib

/-- `f'` is `f` after `n` has moved from `x` to `y`. -/
structure Moved {ι : Type} (f f' : ι → ℕ) (x y : ι) (n : ℕ) : Prop where
  distinct : x ≠ y
  out : f' x + n = f x
  into : f' y = f y + n
  rest : ∀ k, k ≠ x → k ≠ y → f' k = f k

theorem Moved.finsum_eq {ι : Type} [Finite ι] {f f' : ι → ℕ} {x y : ι} {n : ℕ}
    (h : Moved f f' x y n) : ∑ᶠ k, f' k = ∑ᶠ k, f k := by
  classical
  have := Fintype.ofFinite ι
  rw [finsum_eq_sum_of_fintype, finsum_eq_sum_of_fintype]
  have hy : y ∈ Finset.univ.erase x := Finset.mem_erase.mpr ⟨h.distinct.symm, Finset.mem_univ y⟩
  have hrest : ∑ k ∈ (Finset.univ.erase x).erase y, f' k =
      ∑ k ∈ (Finset.univ.erase x).erase y, f k := by
    refine Finset.sum_congr rfl fun k hk => ?_
    simp only [Finset.mem_erase] at hk
    exact h.rest k hk.2.1 hk.1
  rw [← Finset.add_sum_erase _ f' (Finset.mem_univ x), ← Finset.add_sum_erase _ f' hy,
    ← Finset.add_sum_erase _ f (Finset.mem_univ x), ← Finset.add_sum_erase _ f hy, hrest]
  have hout := h.out
  have hinto := h.into
  omega

/-- Changing one place changes the total by what is there. -/
theorem finsum_change {ι : Type} [Finite ι] {f f' : ι → ℕ} {x : ι} (h : ∀ k, k ≠ x → f' k = f k) :
    ∑ᶠ k, f' k + f x = ∑ᶠ k, f k + f' x := by
  classical
  have := Fintype.ofFinite ι
  rw [finsum_eq_sum_of_fintype, finsum_eq_sum_of_fintype]
  have hrest : ∑ k ∈ Finset.univ.erase x, f' k = ∑ k ∈ Finset.univ.erase x, f k :=
    Finset.sum_congr rfl fun k hk => h k (Finset.ne_of_mem_erase hk)
  rw [← Finset.add_sum_erase _ f' (Finset.mem_univ x), ← Finset.add_sum_erase _ f (Finset.mem_univ x),
    hrest]
  omega

theorem add_le_finsum {ι : Type} [Finite ι] {f : ι → ℕ} {x y : ι} (h : x ≠ y) :
    f x + f y ≤ ∑ᶠ k, f k := by
  classical
  have := Fintype.ofFinite ι
  rw [finsum_eq_sum_of_fintype, ← Finset.sum_pair h]
  exact Finset.sum_le_sum_of_subset (Finset.subset_univ _)

end ProgrammableSolana.Lib
