import ProgrammableSolana.Core.State
import ProgrammableSolana.Lib.Checked
import Mathlib.Algebra.Order.Floor.Div

/-! The protocol fee. -/
namespace ProgrammableSolana.Core

open ProgrammableSolana.Lib

def basisPointsDenominator : ℕ := 10000

/-- `fee_ceil`, computed in `u128`. -/
def feeCeil (amount : UInt64) (feeBps : UInt16) : Result UInt64 := do
  require (0 < amount) (.core .zeroAmount)
  require (0 < feeBps) (.core .arithmeticOverflow)
  let numerator ← okOr ((checkedMul128 amount.toNat feeBps.toNat).bind
    (checkedAdd128 · (basisPointsDenominator - 1))) (.core .arithmeticOverflow)
  let fee ← okOr (checkedDiv128 numerator basisPointsDenominator) (.core .arithmeticOverflow)
  okOr (u64TryFrom fee) (.core .integerConversionFailed)

/-- The exact fee: `amount * feeBps / 10000`, rounded up. -/
def ceilFee (amount feeBps : ℕ) : ℕ := (amount * feeBps) ⌈/⌉ basisPointsDenominator

/-- The fee times the denominator lies within one denominator above the exact product. -/
theorem ceilFee_bounds (amount feeBps : ℕ) :
    amount * feeBps ≤ basisPointsDenominator * ceilFee amount feeBps ∧
      basisPointsDenominator * ceilFee amount feeBps <
        amount * feeBps + basisPointsDenominator := by
  unfold ceilFee basisPointsDenominator
  rw [Nat.ceilDiv_eq_add_pred_div]
  omega

theorem ceilFee_pos {amount feeBps : ℕ} (ha : 0 < amount) (hb : 0 < feeBps) :
    0 < ceilFee amount feeBps := by
  have hmul : 0 < amount * feeBps := Nat.mul_pos ha hb
  have hbounds := (ceilFee_bounds amount feeBps).1
  by_contra hzero
  rw [Nat.eq_zero_of_not_pos hzero] at hbounds
  omega

private theorem ceilFee_mono {amount amount' feeBps feeBps' : ℕ} (ha : amount ≤ amount')
    (hb : feeBps ≤ feeBps') : ceilFee amount feeBps ≤ ceilFee amount' feeBps' := by
  have hmul : amount * feeBps ≤ amount' * feeBps' := Nat.mul_le_mul ha hb
  have hupper := (ceilFee_bounds amount feeBps).2
  have hlower := (ceilFee_bounds amount' feeBps').1
  unfold basisPointsDenominator at hupper hlower
  omega

/-- A rate of at most one takes no more than the amount. -/
theorem ceilFee_le {amount feeBps : ℕ} (hb : feeBps ≤ basisPointsDenominator) :
    ceilFee amount feeBps ≤ amount := by
  have hmul : amount * feeBps ≤ amount * basisPointsDenominator := Nat.mul_le_mul_left amount hb
  have hupper := (ceilFee_bounds amount feeBps).2
  unfold basisPointsDenominator at hmul hupper
  omega

/-- The fees of parts against the exact product of their sum. -/
theorem ceilFee_parts (amounts : List ℕ) (feeBps : ℕ) :
    amounts.sum * feeBps ≤ basisPointsDenominator * (amounts.map (ceilFee · feeBps)).sum ∧
      basisPointsDenominator * (amounts.map (ceilFee · feeBps)).sum + amounts.length ≤
        amounts.sum * feeBps + basisPointsDenominator * amounts.length := by
  induction amounts with
  | nil => simp
  | cons amount amounts ih =>
    obtain ⟨hlower, hupper⟩ := ceilFee_bounds amount feeBps
    obtain ⟨ihLower, ihUpper⟩ := ih
    simp only [List.map_cons, List.sum_cons, List.length_cons, Nat.add_mul, Nat.mul_add]
    omega

/-- Splitting an amount never lowers the fee, and raises it by less than one for each part. -/
theorem ceilFee_split {amounts : List ℕ} (feeBps : ℕ) (h : amounts ≠ []) :
    ceilFee amounts.sum feeBps ≤ (amounts.map (ceilFee · feeBps)).sum ∧
      (amounts.map (ceilFee · feeBps)).sum < ceilFee amounts.sum feeBps + amounts.length := by
  have hlength : 0 < amounts.length := List.length_pos_iff.mpr h
  obtain ⟨hlower, hupper⟩ := ceilFee_bounds amounts.sum feeBps
  obtain ⟨hpartsLower, hpartsUpper⟩ := ceilFee_parts amounts feeBps
  unfold basisPointsDenominator at hlower hupper hpartsLower hpartsUpper
  omega

/-- The `u128` intermediate results fit for every amount and rate. -/
theorem feeCeil_numerator (amount : UInt64) (feeBps : UInt16) :
    (checkedMul128 amount.toNat feeBps.toNat).bind
        (checkedAdd128 · (basisPointsDenominator - 1)) =
      some (amount.toNat * feeBps.toNat + (basisPointsDenominator - 1)) := by
  have hmul : amount.toNat * feeBps.toNat ≤ 2 ^ 64 * 2 ^ 16 :=
    Nat.mul_le_mul amount.toNat_lt.le feeBps.toNat_lt.le
  have hfits : amount.toNat * feeBps.toNat < 2 ^ 128 := by omega
  have hadd : amount.toNat * feeBps.toNat + (basisPointsDenominator - 1) < 2 ^ 128 := by
    unfold basisPointsDenominator
    omega
  rw [checkedMul128, if_pos hfits, Option.bind_some, checkedAdd128, if_pos hadd]

private theorem feeCeil_quotient (amount : UInt64) (feeBps : UInt16) :
    checkedDiv128 (amount.toNat * feeBps.toNat + (basisPointsDenominator - 1))
      basisPointsDenominator = some (ceilFee amount.toNat feeBps.toNat) := by
  have hden : 0 < basisPointsDenominator := by decide
  rw [checkedDiv128_of_pos hden, ceilFee, Nat.ceilDiv_eq_add_pred_div, Nat.add_sub_assoc hden]

/-- A fee is returned exactly where the ceiling is positive and fits, and is that ceiling. -/
theorem feeCeil_ok_iff {amount fee : UInt64} {feeBps : UInt16} :
    feeCeil amount feeBps = .ok fee ↔
      0 < amount ∧ 0 < feeBps ∧ fee.toNat = ceilFee amount.toNat feeBps.toNat := by
  unfold feeCeil
  rw [feeCeil_numerator]
  simp only [except_bind_ok_iff, require_ok_iff, okOr_ok_iff, Option.some.injEq, u64TryFrom_eq_some]
  constructor
  · rintro ⟨_, hamount, _, hbps, _, rfl, quotient, hquotient, hfee⟩
    rw [feeCeil_quotient, Option.some.injEq] at hquotient
    exact ⟨hamount, hbps, hfee.trans hquotient.symm⟩
  · rintro ⟨hamount, hbps, hfee⟩
    exact ⟨(), hamount, (), hbps, _, rfl, _, feeCeil_quotient amount feeBps, hfee⟩

theorem feeCeil_ok {amount fee : UInt64} {feeBps : UInt16} (h : feeCeil amount feeBps = .ok fee) :
    0 < amount ∧ 0 < feeBps ∧ fee.toNat = ceilFee amount.toNat feeBps.toNat := feeCeil_ok_iff.mp h

private theorem feeCeil_succeeds {amount : UInt64} {feeBps : UInt16} (hamount : 0 < amount)
    (hbps : 0 < feeBps) (hfits : ceilFee amount.toNat feeBps.toNat < 2 ^ 64) :
    ∃ fee, feeCeil amount feeBps = .ok fee ∧ fee.toNat = ceilFee amount.toNat feeBps.toNat := by
  have hfee : (UInt64.ofNat (ceilFee amount.toNat feeBps.toNat)).toNat =
      ceilFee amount.toNat feeBps.toNat := by
    rw [UInt64.toNat_ofNat', Nat.mod_eq_of_lt hfits]
  exact ⟨_, feeCeil_ok_iff.mpr ⟨hamount, hbps, hfee⟩, hfee⟩

/-- The parts of an amount are each charged, and so is the amount. -/
theorem feeCeil_parts {amounts : List UInt64} {feeBps : UInt16} (hne : amounts ≠ [])
    (hpos : ∀ amount ∈ amounts, 0 < amount) (hfits : (amounts.map UInt64.toNat).sum < 2 ^ 64)
    (hbps : 0 < feeBps) (hrate : feeBps.toNat ≤ basisPointsDenominator) :
    ∃ total fee fees, total.toNat = (amounts.map UInt64.toNat).sum ∧
      feeCeil total feeBps = .ok fee ∧ amounts.mapM (feeCeil · feeBps) = .ok fees ∧
      fee.toNat = ceilFee (amounts.map UInt64.toNat).sum feeBps.toNat ∧
      fees.map UInt64.toNat = (amounts.map UInt64.toNat).map (ceilFee · feeBps.toNat) := by
  have hsucceeds : ∀ amount : UInt64, 0 < amount → ∃ fee, feeCeil amount feeBps = .ok fee ∧
      fee.toNat = ceilFee amount.toNat feeBps.toNat := fun amount hamount =>
    feeCeil_succeeds hamount hbps ((ceilFee_le hrate).trans_lt amount.toNat_lt)
  have htotal : (UInt64.ofNat (amounts.map UInt64.toNat).sum).toNat =
      (amounts.map UInt64.toNat).sum := by
    rw [UInt64.toNat_ofNat', Nat.mod_eq_of_lt hfits]
  have htotalPos : 0 < UInt64.ofNat (amounts.map UInt64.toNat).sum := by
    rw [UInt64.lt_iff_toNat_lt, htotal]
    obtain ⟨amount, hmem⟩ := List.exists_mem_of_ne_nil amounts hne
    have hamount := UInt64.lt_iff_toNat_lt.mp (hpos amount hmem)
    have hle : amount.toNat ≤ (amounts.map UInt64.toNat).sum :=
      List.single_le_sum (fun _ _ => Nat.zero_le _) _ (List.mem_map_of_mem hmem)
    exact hamount.trans_le hle
  obtain ⟨fee, hfee, hfeeNat⟩ := hsucceeds _ htotalPos
  have heach : ∀ amount ∈ amounts, ∃ fee, feeCeil amount feeBps = .ok fee ∧
      fee.toNat = ceilFee amount.toNat feeBps.toNat :=
    fun amount hmem => hsucceeds amount (hpos amount hmem)
  obtain ⟨fees, hfees, hfeesNat⟩ := except_mapM_succeeds heach
  refine ⟨_, fee, fees, htotal, hfee, hfees, htotal ▸ hfeeNat, ?_⟩
  rw [List.map_map, ← congrFun₂ List.forall₂_eq_eq_eq, List.forall₂_map_left_iff,
    List.forall₂_map_right_iff]
  exact hfeesNat.flip

/-- What an execution takes from the user source. -/
structure InputCharge where
  protocolFee : UInt64
  totalInputDebit : UInt64

/-- The fee and the total debit of an input, within the two ceilings the user signed. -/
def chargeInput (amountIn : UInt64) (feeBps : UInt16) (maxProtocolFee maxTotalInputDebit : UInt64) :
    Result InputCharge := do
  let protocolFee ← feeCeil amountIn feeBps
  require (protocolFee ≤ maxProtocolFee) (.core .protocolFeeAboveUserMaximum)
  let totalInputDebit ← okOr (checkedAdd amountIn protocolFee) (.core .arithmeticOverflow)
  require (totalInputDebit ≤ maxTotalInputDebit) (.core .totalDebitAboveUserMaximum)
  return ⟨protocolFee, totalInputDebit⟩

theorem chargeInput_ok {amountIn maxProtocolFee maxTotalInputDebit : UInt64} {feeBps : UInt16}
    {c : InputCharge} (h : chargeInput amountIn feeBps maxProtocolFee maxTotalInputDebit = .ok c) :
    0 < amountIn ∧ c.protocolFee.toNat = ceilFee amountIn.toNat feeBps.toNat ∧
      c.protocolFee ≤ maxProtocolFee ∧
      c.totalInputDebit.toNat = amountIn.toNat + c.protocolFee.toNat ∧
      c.totalInputDebit ≤ maxTotalInputDebit := by
  simp only [chargeInput, except_bind_ok_iff, require_ok_iff, okOr_ok_iff, checkedAdd_eq_some,
    except_pure_ok_iff] at h
  obtain ⟨fee, hfee, _, hmax, total, htotal, _, hcap, rfl⟩ := h
  obtain ⟨hamount, -, hceil⟩ := feeCeil_ok hfee
  exact ⟨hamount, hceil, hmax, htotal, hcap⟩

/-- The errors of a rejected charge. -/
def chargeErrors : List Error :=
  [.core .zeroAmount, .core .arithmeticOverflow, .core .integerConversionFailed,
    .core .protocolFeeAboveUserMaximum, .core .totalDebitAboveUserMaximum]

theorem chargeInput_error {amountIn maxProtocolFee maxTotalInputDebit : UInt64} {feeBps : UInt16}
    {err : Error} (h : chargeInput amountIn feeBps maxProtocolFee maxTotalInputDebit = .error err) :
    err ∈ chargeErrors := by
  simp only [chargeInput, feeCeil, except_bind_error_iff, require_error_iff, okOr_error_iff,
    except_pure_ne_error, and_false, exists_false, or_false] at h
  rcases h with (⟨-, rfl⟩ | ⟨_, -, ⟨-, rfl⟩ | ⟨_, -, ⟨-, rfl⟩ | ⟨_, -, ⟨-, rfl⟩ | ⟨_, -, -, rfl⟩⟩⟩⟩) |
    ⟨_, -, ⟨-, rfl⟩ | ⟨_, -, ⟨-, rfl⟩ | ⟨_, -, -, rfl⟩⟩⟩
  all_goals simp [chargeErrors]

/-- The fee is the exact ceiling wherever it fits, it is monotone, and it cannot be evaded by
splitting an amount. -/
theorem feeCeil_exact :
    (∀ (amount : UInt64) (feeBps : UInt16),
      ((∃ err, feeCeil amount feeBps = .error err) ↔
        amount = 0 ∨ feeBps = 0 ∨ 2 ^ 64 ≤ ceilFee amount.toNat feeBps.toNat) ∧
      (∀ fee, feeCeil amount feeBps = .ok fee →
        fee.toNat = ceilFee amount.toNat feeBps.toNat ∧ 1 ≤ fee.toNat) ∧
      ∃ numerator quotient, (checkedMul128 amount.toNat feeBps.toNat).bind
          (checkedAdd128 · (basisPointsDenominator - 1)) = some numerator ∧
        checkedDiv128 numerator basisPointsDenominator = some quotient) ∧
    (∀ (amount amount' : UInt64) (feeBps feeBps' : UInt16) (fee fee' : UInt64),
      amount ≤ amount' → feeBps ≤ feeBps' → feeCeil amount feeBps = .ok fee →
      feeCeil amount' feeBps' = .ok fee' → fee ≤ fee') ∧
    ∀ (amounts : List UInt64) (feeBps : UInt16), amounts ≠ [] → (∀ amount ∈ amounts, 0 < amount) →
      (amounts.map UInt64.toNat).sum < 2 ^ 64 → 1 ≤ feeBps → feeBps ≤ 10000 →
      ∃ total fee fees, total.toNat = (amounts.map UInt64.toNat).sum ∧
        feeCeil total feeBps = .ok fee ∧ amounts.mapM (feeCeil · feeBps) = .ok fees ∧
        fee.toNat ≤ (fees.map UInt64.toNat).sum ∧
        (fees.map UInt64.toNat).sum < fee.toNat + amounts.length := by
  refine ⟨fun amount feeBps => ⟨?_, fun fee hfee => ?_, ?_⟩, ?_, ?_⟩
  · constructor
    · rintro ⟨err, herr⟩
      by_contra hnone
      rw [not_or, not_or, Nat.not_le] at hnone
      obtain ⟨hamount, hbps, hfits⟩ := hnone
      obtain ⟨fee, hfee, -⟩ := feeCeil_succeeds (UInt64.pos_iff_ne_zero.mpr hamount)
        (UInt16.pos_iff_ne_zero.mpr hbps) hfits
      rw [hfee] at herr
      cases herr
    · intro hbad
      cases hfee : feeCeil amount feeBps with
      | error err => exact ⟨err, rfl⟩
      | ok fee =>
        obtain ⟨hamount, hbps, hceil⟩ := feeCeil_ok hfee
        have hlt := fee.toNat_lt
        rcases hbad with rfl | rfl | hlarge
        · exact absurd hamount (by decide)
        · exact absurd hbps (by decide)
        · omega
  · obtain ⟨hamount, hbps, hceil⟩ := feeCeil_ok hfee
    have hpos := ceilFee_pos (UInt64.lt_iff_toNat_lt.mp hamount) (UInt16.lt_iff_toNat_lt.mp hbps)
    exact ⟨hceil, hceil ▸ hpos⟩
  · exact ⟨_, _, feeCeil_numerator amount feeBps, feeCeil_quotient amount feeBps⟩
  · intro amount amount' feeBps feeBps' fee fee' hamount hbps hfee hfee'
    obtain ⟨-, -, hceil⟩ := feeCeil_ok hfee
    obtain ⟨-, -, hceil'⟩ := feeCeil_ok hfee'
    rw [UInt64.le_iff_toNat_le, hceil, hceil']
    exact ceilFee_mono (UInt64.le_iff_toNat_le.mp hamount) (UInt16.le_iff_toNat_le.mp hbps)
  · intro amounts feeBps hne hpos hfits hbps hrate
    have hbpsPos : 0 < feeBps := by
      rw [UInt16.lt_iff_toNat_lt]
      exact UInt16.le_iff_toNat_le.mp hbps
    obtain ⟨total, fee, fees, htotal, hfee, hfees, hfeeNat, hfeesNat⟩ :=
      feeCeil_parts hne hpos hfits hbpsPos (UInt16.le_iff_toNat_le.mp hrate)
    have hparts : amounts.map UInt64.toNat ≠ [] := by simpa using hne
    obtain ⟨hle, hlt⟩ := ceilFee_split feeBps.toNat hparts
    rw [List.length_map] at hlt
    refine ⟨total, fee, fees, htotal, hfee, hfees, ?_, ?_⟩
    · rwa [hfeeNat, hfeesNat]
    · rwa [hfeeNat, hfeesNat]

theorem feeCeil_exact_sample :
    (∃ total fee fees, total.toNat = 1001 ∧ feeCeil total 30 = .ok fee ∧
      [(1 : UInt64), 1000].mapM (feeCeil · 30) = .ok fees ∧
      fee.toNat ≤ (fees.map UInt64.toNat).sum ∧ (fees.map UInt64.toNat).sum < fee.toNat + 2) ∧
    (3 : UInt64) ≤ 4 := by
  obtain ⟨-, hmono, hsplit⟩ := feeCeil_exact
  have hpos : ∀ amount ∈ [(1 : UInt64), 1000], 0 < amount := by
    intro amount hmem
    simp only [List.mem_cons, List.not_mem_nil, or_false] at hmem
    rcases hmem with rfl | rfl
    · decide
    · decide
  constructor
  · exact hsplit [1, 1000] 30 (by decide) hpos (by decide) (by decide) (by decide)
  · exact hmono 1000 1001 30 30 3 4 (by decide) (by decide) (by decide) (by decide)

end ProgrammableSolana.Core
