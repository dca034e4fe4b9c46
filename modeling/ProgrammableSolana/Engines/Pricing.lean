import ProgrammableSolana.Engines.GeneratedPlan
import ProgrammableSolana.Engines.RoutedPlan

/-! The quote both reference engines give: what it equals, how it moves with its arguments, and
what splitting a trade does to it. -/
namespace ProgrammableSolana.Engines

open ProgrammableSolana.Lib

/-- The quote is its integer reference, every check but the named ones is dead, and the two engines
agree. -/
theorem quoteExactIn_exact (reserveIn reserveOut grossInput : UInt64) (lpFeeBps : UInt16) :
    ((∃ q, RoutedPlan.quoteExactIn reserveIn reserveOut grossInput lpFeeBps = .ok q) ↔
      0 < reserveIn ∧ 0 < reserveOut ∧ 0 < grossInput ∧ lpFeeBps < 10000 ∧
      reserveIn.toNat + grossInput.toNat ≤ 2 ^ 64 - 1 ∧
      0 < effectiveInputOf grossInput.toNat lpFeeBps.toNat ∧
      0 < amountOutOf reserveIn.toNat reserveOut.toNat grossInput.toNat lpFeeBps.toNat) ∧
    (∀ q, RoutedPlan.quoteExactIn reserveIn reserveOut grossInput lpFeeBps = .ok q →
      q.effectiveInput.toNat = effectiveInputOf grossInput.toNat lpFeeBps.toNat ∧
      q.amountOut.toNat =
        amountOutOf reserveIn.toNat reserveOut.toNat grossInput.toNat lpFeeBps.toNat ∧
      q.lpFeeRetained.toNat =
        grossInput.toNat - effectiveInputOf grossInput.toNat lpFeeBps.toNat ∧
      q.amountOut < reserveOut) ∧
    (∀ err, RoutedPlan.quoteExactIn reserveIn reserveOut grossInput lpFeeBps = .error err →
      err ≠ .integerConversionFailed ∧ err ≠ .outputReserveExceeded ∧
      (err = .arithmeticOverflow → 2 ^ 64 ≤ reserveIn.toNat + grossInput.toNat)) ∧
    GeneratedPlan.quoteExactIn reserveIn reserveOut grossInput lpFeeBps =
      RoutedPlan.quoteExactIn reserveIn reserveOut grossInput lpFeeBps := by
  unfold RoutedPlan.quoteExactIn GeneratedPlan.quoteExactIn
  refine ⟨?_, fun q hq => ?_, fun err herr => ?_, rfl⟩
  · simp only [quoteExactIn_ok_iff, exists_and_left, exists_eq', and_true]
    rw [UInt64.lt_iff_toNat_lt, UInt64.lt_iff_toNat_lt, UInt64.lt_iff_toNat_lt,
      UInt16.lt_iff_toNat_lt]
    constructor
    · intro h
      have hfits := h.fits
      exact ⟨h.reserves.1, h.reserves.2, h.input, h.rate, by omega, h.effective, h.output⟩
    · rintro ⟨hin, hout, hgross, hrate, hfits, heffective, houtput⟩
      exact ⟨⟨hin, hout⟩, hgross, hrate, by omega, heffective, houtput⟩
  · obtain ⟨hquotable, rfl⟩ := quoteExactIn_ok_iff.mp hq
    obtain ⟨heffective, hretained, hamount⟩ := hquotable.quoteOf_eq
    refine ⟨heffective, hamount, hretained, ?_⟩
    rw [UInt64.lt_iff_toNat_lt, hamount]
    exact amountOutOf_lt hquotable.reserves.1 hquotable.reserves.2
  · obtain ⟨hmem, hoverflow⟩ := quoteExactIn_error herr
    refine ⟨fun heq => ?_, fun heq => ?_, hoverflow⟩
    · exact absurd (heq ▸ hmem) (by decide)
    · exact absurd (heq ▸ hmem) (by decide)

theorem quoteExactIn_exact_sample :
    ∃ q, RoutedPlan.quoteExactIn 1000 1000 100 30 = .ok q ∧ q.amountOut.toNat = 90 ∧
      q.lpFeeRetained.toNat = 1 := by
  obtain ⟨hok, hvalues, -, -⟩ := quoteExactIn_exact 1000 1000 100 30
  obtain ⟨q, hq⟩ := hok.mpr (by decide)
  obtain ⟨-, hamount, hretained, -⟩ := hvalues q hq
  exact ⟨q, hq, hamount, hretained⟩

/-- Better terms never quote less: the output grows with the input and the output reserve and falls
with the input reserve and the fee, and so does the set of arguments that can be quoted. -/
theorem quoteExactIn_mono (reserveIn reserveIn' reserveOut reserveOut' grossInput grossInput' : UInt64)
    (lpFeeBps lpFeeBps' : UInt16) (q : CpmmQuote)
    (hq : RoutedPlan.quoteExactIn reserveIn reserveOut grossInput lpFeeBps = .ok q)
    (hpos : 0 < reserveIn') (hin : reserveIn' ≤ reserveIn) (hout : reserveOut ≤ reserveOut')
    (hgross : grossInput ≤ grossInput') (hrate : lpFeeBps' ≤ lpFeeBps)
    (hfits : reserveIn'.toNat + grossInput'.toNat < 2 ^ 64) :
    ∃ q', RoutedPlan.quoteExactIn reserveIn' reserveOut' grossInput' lpFeeBps' = .ok q' ∧
      GeneratedPlan.quoteExactIn reserveIn' reserveOut' grossInput' lpFeeBps' = .ok q' ∧
      q.amountOut ≤ q'.amountOut := by
  unfold RoutedPlan.quoteExactIn at hq
  obtain ⟨hquotable, rfl⟩ := quoteExactIn_ok_iff.mp hq
  rw [UInt64.lt_iff_toNat_lt] at hpos
  rw [UInt64.le_iff_toNat_le] at hin hout hgross
  rw [UInt16.le_iff_toNat_le] at hrate
  have hquotable' := hquotable.mono hpos hin hout hgross hrate hfits
  have hok := quoteExactIn_ok_iff.mpr ⟨hquotable', rfl⟩
  refine ⟨_, hok, hok, ?_⟩
  obtain ⟨-, -, hamount⟩ := hquotable.quoteOf_eq
  obtain ⟨-, -, hamount'⟩ := hquotable'.quoteOf_eq
  rw [UInt64.le_iff_toNat_le, hamount, hamount']
  exact amountOutOf_mono hpos hin hout hgross hrate

theorem quoteExactIn_mono_sample :
    ∃ q', RoutedPlan.quoteExactIn 900 1100 200 20 = .ok q' ∧
      GeneratedPlan.quoteExactIn 900 1100 200 20 = .ok q' ∧ 90 ≤ q'.amountOut :=
  quoteExactIn_mono 1000 900 1000 1100 100 200 30 20 ⟨99, 1, 90⟩ (by decide) (by decide) (by decide)
    (by decide) (by decide) (by decide) (by decide)

section Splitting

/-- Quotes one after another: each whole input enters the input reserve, each output leaves the
output reserve. -/
def quoteEach (lpFeeBps : UInt16) : UInt64 → UInt64 → List UInt64 → EngineResult (List UInt64)
  | _, _, [] => .ok []
  | reserveIn, reserveOut, grossInput :: inputs => do
    let q ← RoutedPlan.quoteExactIn reserveIn reserveOut grossInput lpFeeBps
    let outputs ← quoteEach lpFeeBps (reserveIn + grossInput) (reserveOut - q.amountOut) inputs
    return q.amountOut :: outputs

variable {lpFeeBps : UInt16}

/-- The priced parts of inputs add up to no more than the priced part of their sum. -/
theorem sum_effectiveInputOf_le (inputs : List ℕ) (lpFeeBps : ℕ) :
    (inputs.map (effectiveInputOf · lpFeeBps)).sum ≤ effectiveInputOf inputs.sum lpFeeBps := by
  induction inputs with
  | nil => simp
  | cons input inputs ih =>
    have hden : 0 < basisPointsDenominator := by decide
    simp only [List.map_cons, List.sum_cons]
    apply (Nat.add_le_add_left ih _).trans
    unfold effectiveInputOf
    rw [Nat.add_mul]
    exact Nat.div_add_div_le_add_div

/-- What a run of quotes leaves: the inputs fit, and the rest of the output reserve keeps the product
with any reserve that starts no higher than the input reserve and grows by the priced parts only. -/
theorem quoteEach_ok {reserveIn reserveOut : UInt64} {inputs outputs : List UInt64}
    (h : quoteEach lpFeeBps reserveIn reserveOut inputs = .ok outputs) :
    (outputs.map UInt64.toNat).sum ≤ reserveOut.toNat ∧
      (inputs ≠ [] → reserveIn.toNat + (inputs.map UInt64.toNat).sum < 2 ^ 64) ∧
      ∀ x ≤ reserveIn.toNat, reserveOut.toNat * x ≤
        (reserveOut.toNat - (outputs.map UInt64.toNat).sum) *
          (x + ((inputs.map UInt64.toNat).map (effectiveInputOf · lpFeeBps.toNat)).sum) := by
  induction inputs generalizing reserveIn reserveOut outputs with
  | nil =>
    cases h
    simp
  | cons input inputs ih =>
    unfold quoteEach RoutedPlan.quoteExactIn at h
    simp only [except_bind_ok_iff, except_pure_ok_iff] at h
    obtain ⟨q, hq, rest, hrest, rfl⟩ := h
    obtain ⟨-, -, -, hfits, hamount, -, hlt⟩ := quoteExactIn_ok hq
    obtain ⟨hsum, hinputs, hproduct⟩ := ih hrest
    have hin : (reserveIn + input).toNat = reserveIn.toNat + input.toNat := toNat_add_of_fits hfits
    have hout : (reserveOut - q.amountOut).toNat = reserveOut.toNat - q.amountOut.toNat :=
      UInt64.toNat_sub_of_le _ _ (UInt64.le_iff_toNat_le.mpr hlt.le)
    rw [hout] at hsum hproduct
    rw [hin] at hinputs hproduct
    simp only [List.map_cons, List.sum_cons]
    refine ⟨by omega, fun _ => ?_, fun x hx => ?_⟩
    · rcases eq_or_ne inputs [] with rfl | hne
      · simpa using hfits
      · have htail := hinputs hne
        omega
    · have hinput := effectiveInputOf_le input.toNat lpFeeBps.toNat
      have hstep : reserveOut.toNat * x ≤ (reserveOut.toNat - q.amountOut.toNat) *
          (x + effectiveInputOf input.toNat lpFeeBps.toNat) := by
        rw [hamount]
        exact remaining_mul_le hx
      have htail := hproduct (x + effectiveInputOf input.toNat lpFeeBps.toNat) (by omega)
      rw [Nat.sub_add_eq, ← Nat.add_assoc]
      exact hstep.trans htail

private theorem quotable_head {reserveIn reserveOut input : UInt64} {inputs outputs : List UInt64}
    (h : quoteEach lpFeeBps reserveIn reserveOut (input :: inputs) = .ok outputs) :
    Quotable reserveIn.toNat reserveOut.toNat input.toNat lpFeeBps.toNat := by
  unfold quoteEach RoutedPlan.quoteExactIn at h
  obtain ⟨q, hq, -⟩ := except_bind_ok_iff.mp h
  exact (quoteExactIn_ok_iff.mp hq).1

/-- Splitting a trade never gains output: wherever the parts can be quoted one after another, so
can their sum, for no less. -/
theorem quoteEach_le_single (reserveIn reserveOut : UInt64) (inputs outputs : List UInt64)
    (hne : inputs ≠ []) (h : quoteEach lpFeeBps reserveIn reserveOut inputs = .ok outputs) :
    ∃ total q, total.toNat = (inputs.map UInt64.toNat).sum ∧
      RoutedPlan.quoteExactIn reserveIn reserveOut total lpFeeBps = .ok q ∧
      GeneratedPlan.quoteExactIn reserveIn reserveOut total lpFeeBps = .ok q ∧
      (outputs.map UInt64.toNat).sum ≤ q.amountOut.toNat := by
  obtain ⟨hsum, hinputs, hproduct⟩ := quoteEach_ok h
  have hfits := hinputs hne
  have hpriced := sum_effectiveInputOf_le (inputs.map UInt64.toNat) lpFeeBps.toNat
  have htotal : (UInt64.ofNat (inputs.map UInt64.toNat).sum).toNat =
      (inputs.map UInt64.toNat).sum := toNat_ofNat_of_lt (by omega)
  obtain ⟨input, rest, rfl⟩ := List.exists_cons_of_ne_nil hne
  have hhead := quotable_head h
  have hlarger : input.toNat ≤ ((input :: rest).map UInt64.toNat).sum := by
    simp only [List.map_cons, List.sum_cons]
    omega
  have hquotable := hhead.mono hhead.reserves.1 le_rfl le_rfl hlarger le_rfl hfits
  rw [← htotal] at hquotable hpriced
  have hok := quoteExactIn_ok_iff.mpr ⟨hquotable, rfl⟩
  obtain ⟨-, -, hamount⟩ := hquotable.quoteOf_eq
  refine ⟨_, _, htotal, hok, hok, ?_⟩
  have hkept := (hproduct reserveIn.toNat le_rfl).trans
    (Nat.mul_le_mul_left _ (Nat.add_le_add_left hpriced reserveIn.toNat))
  have hpos := hquotable.reserves.1
  rw [hamount, amountOutOf, Nat.le_div_iff_mul_le (by omega)]
  generalize effectiveInputOf _ lpFeeBps.toNat = e at hkept ⊢
  generalize (outputs.map UInt64.toNat).sum = out at hkept hsum ⊢
  obtain ⟨left, hleft⟩ := Nat.exists_eq_add_of_le hsum
  rw [hleft, Nat.add_sub_cancel_left] at hkept
  rw [hleft]
  have hexpand : (out + left) * reserveIn.toNat = out * reserveIn.toNat + left * reserveIn.toNat :=
    Nat.add_mul _ _ _
  have hrest : left * (reserveIn.toNat + e) = left * reserveIn.toNat + left * e := Nat.mul_add _ _ _
  calc out * (reserveIn.toNat + e) = out * reserveIn.toNat + out * e := Nat.mul_add _ _ _
    _ ≤ left * e + out * e := by omega
    _ = (out + left) * e := by ring

theorem quoteEach_le_single_sample : ∃ total q, total.toNat = 150 ∧
    RoutedPlan.quoteExactIn 1000 1000 total 30 = .ok q ∧
    GeneratedPlan.quoteExactIn 1000 1000 total 30 = .ok q ∧ 128 ≤ q.amountOut.toNat :=
  quoteEach_le_single 1000 1000 [100, 50] [90, 38] (by decide) (by decide)

end Splitting

end ProgrammableSolana.Engines
