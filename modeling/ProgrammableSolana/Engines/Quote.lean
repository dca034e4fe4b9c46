import ProgrammableSolana.Lib.Checked
import ProgrammableSolana.Lib.Exec
import ProgrammableSolana.Wire.Common
import Mathlib.Tactic.Ring

/-! What the reference engines share: the constant-product quote, in `u128` arithmetic with two
floors, and the command a payload may hold for their helper. -/
namespace ProgrammableSolana.Engines

open ProgrammableSolana.Lib
open ProgrammableSolana.Wire (maxOpaquePayloadLen)

def basisPointsDenominator : ℕ := 10000

/-- The first bytes of `sha256("account:EngineState")`. -/
def engineStateDiscriminator : Bytes 8 := ⟨[26, 2, 24, 225, 247, 210, 96, 161], rfl⟩

/-- One list of error names; each engine uses the ones its own source declares. -/
inductive EngineError where
  | unexpectedAccount
  | accountNotEnoughKeys
  | accountNotSigner
  | accountNotMutable
  | accountAlreadyInUse
  | invalidProgramId
  | instructionFallbackNotFound
  | instructionDidNotDeserialize
  | invalidMarket
  | invalidRevision
  | invalidLpFeeBps
  | invalidTimingMode
  | invalidAuthority
  | invalidMode
  | invalidCoreCaller
  | invalidCoreInstruction
  | invalidInvocationDepth
  | invalidInstructionsSysvar
  | invalidRequestEncoding
  | entrypointPhaseMismatch
  | invalidPhaseForTiming
  | invalidEngineState
  | engineStateSigner
  | prepareStateMustBeReadOnly
  | mutationStateMustBeWritable
  | invalidCallbackPrivileges
  | invalidCallbackAuthority
  | aliasedCallbackAuthority
  | opaqueSignerForbidden
  | prepareCapabilityWritable
  | marketMismatch
  | revisionMismatch
  | sequenceMismatch
  | tooManyCapabilities
  | capabilityCountMismatch
  | capabilityHashMismatch
  | capabilityHashComputationFailed
  | executionDigestComputationFailed
  | executionDigestMismatch
  | zeroReserve
  | zeroInput
  | effectiveInputZero
  | outputAmountZero
  | outputReserveExceeded
  | arithmeticOverflow
  | integerConversionFailed
  | sequenceOverflow
  | invalidHelperCapabilityClosure
  | invalidHelperProgram
  | invalidHelperState
  | invalidHelperPayload
  | invalidCapabilityAuthority
  | invalidReceiptEncoding
  | deliberateLateCommitFailure
  | hostileCpiUnexpectedlySucceeded
  deriving DecidableEq, Repr

abbrev EngineResult : Type → Type := Except EngineError

/-- The first field of a state account. -/
def discriminatorCodec : Codec EngineError Unit :=
  (Codec.bytes 8).literal engineStateDiscriminator
    (fun d => require (d = engineStateDiscriminator) .invalidEngineState) trivial
    (fun _ => require_ok_iff)

@[simp] theorem discriminatorCodec_valid (u : Unit) : discriminatorCodec.Valid u := trivial

def helperPayloadTag : UInt8 := 1

def helperIncrementPayloadLen : ℕ := 1 + 8

def helperIncrementDiscriminator : List UInt8 := [0x0b, 0x12, 0x68, 0x09, 0x68, 0xae, 0x3b, 0x21]

/-- The amount a helper payload asks for. -/
def helperAmount (payload : List UInt8) : EngineResult UInt64 := do
  let amount ←
    if payload.length = 1 then .ok 1
    else if payload.length = helperIncrementPayloadLen ∨ payload.length = maxOpaquePayloadLen then
      match copyFromSlice 8 ((payload.drop 1).take 8) with
      | .ok encoded => .ok (u64FromLeBytes encoded)
      | .error (_ : Fault EngineError) => .error .invalidHelperPayload
    else .error .invalidHelperPayload
  require (0 < amount) .invalidHelperPayload
  return amount

structure CpmmQuote where
  effectiveInput : UInt64
  lpFeeRetained : UInt64
  amountOut : UInt64
  deriving DecidableEq

def quoteExactIn (reserveIn reserveOut grossInput : UInt64) (lpFeeBps : UInt16) :
    EngineResult CpmmQuote := do
  require (0 < reserveIn ∧ 0 < reserveOut) .zeroReserve
  require (0 < grossInput) .zeroInput
  let retainedBps ← okOr (checkedSub128 basisPointsDenominator lpFeeBps.toNat) .invalidLpFeeBps
  require (0 < retainedBps) .invalidLpFeeBps
  let _ ← okOr (checkedAdd reserveIn grossInput) .arithmeticOverflow
  let effective ← okOr ((checkedMul128 grossInput.toNat retainedBps).bind
    (checkedDiv128 · basisPointsDenominator)) .arithmeticOverflow
  let effectiveInput ← okOr (u64TryFrom effective) .integerConversionFailed
  require (0 < effectiveInput) .effectiveInputZero
  let numerator ← okOr (checkedMul128 reserveOut.toNat effectiveInput.toNat) .arithmeticOverflow
  let denominator ← okOr (checkedAdd128 reserveIn.toNat effectiveInput.toNat) .arithmeticOverflow
  let amount ← okOr (checkedDiv128 numerator denominator) .arithmeticOverflow
  let amountOut ← okOr (u64TryFrom amount) .integerConversionFailed
  require (0 < amountOut) .outputAmountZero
  require (amountOut < reserveOut) .outputReserveExceeded
  let lpFeeRetained ← okOr (checkedSub grossInput effectiveInput) .arithmeticOverflow
  return { effectiveInput, lpFeeRetained, amountOut }

/-- The part of the input that is priced: what the liquidity fee leaves, rounded down. -/
def effectiveInputOf (grossInput lpFeeBps : ℕ) : ℕ :=
  grossInput * (basisPointsDenominator - lpFeeBps) / basisPointsDenominator

/-- The exact output: `y * e / (x + e)`, rounded down. -/
def amountOutOf (reserveIn reserveOut grossInput lpFeeBps : ℕ) : ℕ :=
  reserveOut * effectiveInputOf grossInput lpFeeBps /
    (reserveIn + effectiveInputOf grossInput lpFeeBps)

theorem effectiveInputOf_le (grossInput lpFeeBps : ℕ) :
    effectiveInputOf grossInput lpFeeBps ≤ grossInput := by
  have hden : 0 < basisPointsDenominator := by decide
  have hmul := Nat.mul_le_mul_left grossInput (Nat.sub_le basisPointsDenominator lpFeeBps)
  calc effectiveInputOf grossInput lpFeeBps
      ≤ grossInput * basisPointsDenominator / basisPointsDenominator := Nat.div_le_div_right hmul
    _ = grossInput := Nat.mul_div_cancel _ hden

theorem amountOutOf_lt {reserveIn reserveOut grossInput lpFeeBps : ℕ} (hin : 0 < reserveIn)
    (hout : 0 < reserveOut) :
    amountOutOf reserveIn reserveOut grossInput lpFeeBps < reserveOut := by
  unfold amountOutOf
  rw [Nat.div_lt_iff_lt_mul (by omega)]
  exact Nat.mul_lt_mul_of_pos_left (by omega) hout

/-- The quote the reference names, where it fits. -/
def quoteOf (reserveIn reserveOut grossInput : UInt64) (lpFeeBps : UInt16) : CpmmQuote where
  effectiveInput := UInt64.ofNat (effectiveInputOf grossInput.toNat lpFeeBps.toNat)
  lpFeeRetained :=
    UInt64.ofNat (grossInput.toNat - effectiveInputOf grossInput.toNat lpFeeBps.toNat)
  amountOut := UInt64.ofNat
    (amountOutOf reserveIn.toNat reserveOut.toNat grossInput.toNat lpFeeBps.toNat)

/-- Where there is a quote. -/
structure Quotable (reserveIn reserveOut grossInput lpFeeBps : ℕ) : Prop where
  reserves : 0 < reserveIn ∧ 0 < reserveOut
  input : 0 < grossInput
  rate : lpFeeBps < basisPointsDenominator
  fits : reserveIn + grossInput < 2 ^ 64
  effective : 0 < effectiveInputOf grossInput lpFeeBps
  output : 0 < amountOutOf reserveIn reserveOut grossInput lpFeeBps

section Quotes

variable {reserveIn reserveOut grossInput : UInt64} {lpFeeBps : UInt16}

/-- The priced part of the input, as the `u128` steps compute it. -/
theorem quote_effectiveInput (grossInput : UInt64) (lpFeeBps : UInt16) :
    (checkedMul128 grossInput.toNat (basisPointsDenominator - lpFeeBps.toNat)).bind
        (checkedDiv128 · basisPointsDenominator) =
      some (effectiveInputOf grossInput.toNat lpFeeBps.toNat) := by
  have hden : 0 < basisPointsDenominator := by decide
  have hmul : grossInput.toNat * (basisPointsDenominator - lpFeeBps.toNat) ≤
      2 ^ 64 * basisPointsDenominator :=
    Nat.mul_le_mul grossInput.toNat_lt.le (Nat.sub_le _ _)
  have hfits : grossInput.toNat * (basisPointsDenominator - lpFeeBps.toNat) < 2 ^ 128 :=
    hmul.trans_lt (by decide)
  rw [checkedMul128, if_pos hfits, Option.bind_some, checkedDiv128_of_pos hden]
  rfl

private theorem okOr_checkedAdd_bind {ε β : Type} (a b : UInt64) (e : ε) (k : Except ε β) :
    (okOr (checkedAdd a b) e >>= fun _ => k) =
      (require (a.toNat + b.toNat < 2 ^ 64) e >>= fun _ => k) := by
  by_cases h : a.toNat + b.toNat < 2 ^ 64
  · rw [require_of h, checkedAdd, if_pos h]
    rfl
  · rw [require_of_not h, checkedAdd, if_neg h]
    rfl

/-- The quote in closed form: of the checks the source makes, the ones that can fail. -/
theorem quoteExactIn_eq (reserveIn reserveOut grossInput : UInt64) (lpFeeBps : UInt16) :
    quoteExactIn reserveIn reserveOut grossInput lpFeeBps =
      (do
        require (0 < reserveIn ∧ 0 < reserveOut) .zeroReserve
        require (0 < grossInput) .zeroInput
        require (lpFeeBps.toNat < basisPointsDenominator) .invalidLpFeeBps
        require (reserveIn.toNat + grossInput.toNat < 2 ^ 64) .arithmeticOverflow
        require (0 < effectiveInputOf grossInput.toNat lpFeeBps.toNat) .effectiveInputZero
        require (0 < amountOutOf reserveIn.toNat reserveOut.toNat grossInput.toNat lpFeeBps.toNat)
          .outputAmountZero
        return quoteOf reserveIn reserveOut grossInput lpFeeBps) := by
  have hle := effectiveInputOf_le grossInput.toNat lpFeeBps.toNat
  have heffective := hle.trans_lt grossInput.toNat_lt
  have hinput := toNat_ofNat_of_lt heffective
  have hzero : (0 : UInt64).toNat = 0 := rfl
  unfold quoteExactIn
  refine require_bind_congr fun hreserves => require_bind_congr fun _ => ?_
  obtain ⟨hin, hout⟩ := hreserves
  rw [UInt64.lt_iff_toNat_lt, hzero] at hin hout
  by_cases hrate : lpFeeBps.toNat < basisPointsDenominator
  · have hretained : checkedSub128 basisPointsDenominator lpFeeBps.toNat =
        some (basisPointsDenominator - lpFeeBps.toNat) := if_pos hrate.le
    rw [require_of hrate, hretained, okOr_some, except_ok_bind, except_ok_bind,
      require_of (Nat.sub_pos_of_lt hrate), except_ok_bind, okOr_checkedAdd_bind]
    refine require_bind_congr fun _ => ?_
    have heffectivePos : 0 < UInt64.ofNat (effectiveInputOf grossInput.toNat lpFeeBps.toNat) ↔
        0 < effectiveInputOf grossInput.toNat lpFeeBps.toNat := by
      rw [UInt64.lt_iff_toNat_lt, hinput, hzero]
    rw [quote_effectiveInput, okOr_some, except_ok_bind, u64TryFrom_of_lt heffective, okOr_some,
      except_ok_bind, require_congr heffectivePos]
    refine require_bind_congr fun hpos => ?_
    rw [hinput, checkedMul128_words reserveOut.toNat_lt heffective, okOr_some, except_ok_bind,
      checkedAdd128_words reserveIn.toNat_lt heffective, okOr_some, except_ok_bind,
      checkedDiv128_of_pos (by omega), okOr_some, except_ok_bind]
    have hamount : amountOutOf reserveIn.toNat reserveOut.toNat grossInput.toNat lpFeeBps.toNat <
        reserveOut.toNat := amountOutOf_lt hin hout
    have hfits := hamount.trans reserveOut.toNat_lt
    have houtput := toNat_ofNat_of_lt hfits
    unfold amountOutOf at hamount hfits houtput
    have houtputPos : 0 < UInt64.ofNat (amountOutOf reserveIn.toNat reserveOut.toNat
        grossInput.toNat lpFeeBps.toNat) ↔
          0 < amountOutOf reserveIn.toNat reserveOut.toNat grossInput.toNat lpFeeBps.toNat := by
      unfold amountOutOf
      rw [UInt64.lt_iff_toNat_lt, houtput, hzero]
    unfold amountOutOf at houtputPos ⊢
    rw [u64TryFrom_of_lt hfits, okOr_some, except_ok_bind, require_congr houtputPos]
    refine require_bind_congr fun _ => ?_
    have hbelow : UInt64.ofNat (reserveOut.toNat * effectiveInputOf grossInput.toNat lpFeeBps.toNat /
        (reserveIn.toNat + effectiveInputOf grossInput.toNat lpFeeBps.toNat)) < reserveOut := by
      rw [UInt64.lt_iff_toNat_lt, houtput]
      exact hamount
    have hfee : checkedSub grossInput
        (UInt64.ofNat (effectiveInputOf grossInput.toNat lpFeeBps.toNat)) =
          some (UInt64.ofNat
            (grossInput.toNat - effectiveInputOf grossInput.toNat lpFeeBps.toNat)) := by
      have hlt := grossInput.toNat_lt
      rw [checkedSub_eq_some, hinput, toNat_ofNat_of_lt (by omega)]
      omega
    rw [require_of hbelow, except_ok_bind, hfee, okOr_some, except_ok_bind]
    rfl
  · rw [require_of_not hrate]
    by_cases hall : lpFeeBps.toNat = basisPointsDenominator
    · have hretained : checkedSub128 basisPointsDenominator lpFeeBps.toNat = some 0 := by
        rw [hall]
        rfl
      rw [hretained, okOr_some, except_ok_bind, require_of_not (Nat.lt_irrefl 0)]
      rfl
    · have hretained : checkedSub128 basisPointsDenominator lpFeeBps.toNat = none :=
        if_neg (by omega)
      rw [hretained]
      rfl

theorem quoteExactIn_ok_iff {q : CpmmQuote} :
    quoteExactIn reserveIn reserveOut grossInput lpFeeBps = .ok q ↔
      Quotable reserveIn.toNat reserveOut.toNat grossInput.toNat lpFeeBps.toNat ∧
        quoteOf reserveIn reserveOut grossInput lpFeeBps = q := by
  rw [quoteExactIn_eq]
  simp only [except_bind_ok_iff, require_ok_iff, except_pure_ok_iff, UInt64.lt_iff_toNat_lt]
  constructor
  · rintro ⟨_, hreserves, _, hinput, _, hrate, _, hfits, _, heffective, _, houtput, hq⟩
    exact ⟨⟨hreserves, hinput, hrate, hfits, heffective, houtput⟩, hq⟩
  · rintro ⟨h, hq⟩
    exact ⟨(), h.reserves, (), h.input, (), h.rate, (), h.fits, (), h.effective, (), h.output, hq⟩

theorem Quotable.quoteOf_eq
    (h : Quotable reserveIn.toNat reserveOut.toNat grossInput.toNat lpFeeBps.toNat) :
    (quoteOf reserveIn reserveOut grossInput lpFeeBps).effectiveInput.toNat =
        effectiveInputOf grossInput.toNat lpFeeBps.toNat ∧
      (quoteOf reserveIn reserveOut grossInput lpFeeBps).lpFeeRetained.toNat =
        grossInput.toNat - effectiveInputOf grossInput.toNat lpFeeBps.toNat ∧
      (quoteOf reserveIn reserveOut grossInput lpFeeBps).amountOut.toNat =
        amountOutOf reserveIn.toNat reserveOut.toNat grossInput.toNat lpFeeBps.toNat := by
  have hle := effectiveInputOf_le grossInput.toNat lpFeeBps.toNat
  have hgross := grossInput.toNat_lt
  have hlt : amountOutOf reserveIn.toNat reserveOut.toNat grossInput.toNat lpFeeBps.toNat <
      reserveOut.toNat := amountOutOf_lt h.reserves.1 h.reserves.2
  unfold quoteOf
  refine ⟨toNat_ofNat_of_lt ?_, toNat_ofNat_of_lt ?_, toNat_ofNat_of_lt ?_⟩
  · omega
  · omega
  · exact hlt.trans reserveOut.toNat_lt

theorem quoteExactIn_ok {q : CpmmQuote}
    (h : quoteExactIn reserveIn reserveOut grossInput lpFeeBps = .ok q) :
    0 < reserveIn.toNat ∧ 0 < reserveOut.toNat ∧ 0 < grossInput.toNat ∧
      reserveIn.toNat + grossInput.toNat < 2 ^ 64 ∧
      q.amountOut.toNat =
        amountOutOf reserveIn.toNat reserveOut.toNat grossInput.toNat lpFeeBps.toNat ∧
      0 < q.amountOut.toNat ∧ q.amountOut.toNat < reserveOut.toNat := by
  obtain ⟨hquotable, rfl⟩ := quoteExactIn_ok_iff.mp h
  obtain ⟨-, -, hamount⟩ := hquotable.quoteOf_eq
  obtain ⟨hin, hout⟩ := hquotable.reserves
  rw [hamount]
  exact ⟨hin, hout, hquotable.input, hquotable.fits, rfl, hquotable.output, amountOutOf_lt hin hout⟩

/-- The errors of a refused quote. -/
def quoteErrors : List EngineError :=
  [.zeroReserve, .zeroInput, .invalidLpFeeBps, .arithmeticOverflow, .effectiveInputZero,
    .outputAmountZero]

/-- Of the overflows only the one of the input reserve can happen. -/
theorem quoteExactIn_error {err : EngineError}
    (h : quoteExactIn reserveIn reserveOut grossInput lpFeeBps = .error err) :
    err ∈ quoteErrors ∧
      (err = .arithmeticOverflow → 2 ^ 64 ≤ reserveIn.toNat + grossInput.toNat) := by
  rw [quoteExactIn_eq] at h
  simp only [except_bind_error_iff, require_error_iff, except_pure_ne_error, and_false,
    exists_false, or_false] at h
  rcases h with ⟨-, rfl⟩ | ⟨_, -, ⟨-, rfl⟩ | ⟨_, -, ⟨-, rfl⟩ | ⟨_, -, ⟨hfits, rfl⟩ | ⟨_, -,
    ⟨-, rfl⟩ | ⟨_, -, -, rfl⟩⟩⟩⟩⟩
  case inr.inr.inr.inl => exact ⟨by simp [quoteErrors], fun _ => Nat.not_lt.mp hfits⟩
  all_goals exact ⟨by simp [quoteErrors], by simp⟩

end Quotes

/-- The product of the reserves does not fall when the whole input is credited. -/
theorem product_le {x y dx e out : ℕ} (he : e ≤ dx) (hout : out = y * e / (x + e)) :
    x * y ≤ (x + dx) * (y - out) := by
  have hfloor : out * (x + e) ≤ y * e := by
    rw [hout]
    exact Nat.div_mul_le_self _ _
  have hsub : (x + e) * (y - out) = (x + e) * y - (x + e) * out := Nat.mul_sub _ _ _
  have hcomm : out * (x + e) = (x + e) * out := Nat.mul_comm _ _
  have hexpand : (x + e) * y = x * y + y * e := by ring
  calc x * y ≤ (x + e) * (y - out) := by omega
    _ ≤ (x + dx) * (y - out) := Nat.mul_le_mul_right _ (by omega)

private theorem div_le_div_of_mul_le {a b c d : ℕ} (hb : 0 < b) (hd : 0 < d) (h : a * d ≤ c * b) :
    a / b ≤ c / d := by
  rw [Nat.le_div_iff_mul_le hd]
  have hfloor : a / b * b ≤ a := Nat.div_mul_le_self a b
  have hchain : a / b * d * b ≤ c * b :=
    calc a / b * d * b = a / b * b * d := by ring
      _ ≤ a * d := Nat.mul_le_mul_right d hfloor
      _ ≤ c * b := h
  exact Nat.le_of_mul_le_mul_right hchain hb

private theorem effectiveInputOf_mono {grossInput grossInput' lpFeeBps lpFeeBps' : ℕ}
    (hgross : grossInput ≤ grossInput') (hrate : lpFeeBps' ≤ lpFeeBps) :
    effectiveInputOf grossInput lpFeeBps ≤ effectiveInputOf grossInput' lpFeeBps' := by
  unfold effectiveInputOf
  apply Nat.div_le_div_right
  exact Nat.mul_le_mul hgross (Nat.sub_le_sub_left hrate _)

/-- More input, a lower fee, a deeper output reserve and a shallower input reserve never give
less. -/
theorem amountOutOf_mono {reserveIn reserveIn' reserveOut reserveOut' grossInput grossInput'
    lpFeeBps lpFeeBps' : ℕ} (hpos : 0 < reserveIn') (hin : reserveIn' ≤ reserveIn)
    (hout : reserveOut ≤ reserveOut') (hgross : grossInput ≤ grossInput')
    (hrate : lpFeeBps' ≤ lpFeeBps) :
    amountOutOf reserveIn reserveOut grossInput lpFeeBps ≤
      amountOutOf reserveIn' reserveOut' grossInput' lpFeeBps' := by
  have heffective := effectiveInputOf_mono hgross hrate
  unfold amountOutOf
  generalize effectiveInputOf grossInput lpFeeBps = e at heffective ⊢
  generalize effectiveInputOf grossInput' lpFeeBps' = e' at heffective ⊢
  apply div_le_div_of_mul_le
  · omega
  · omega
  have hpriced : reserveOut * e ≤ reserveOut' * e' := Nat.mul_le_mul hout heffective
  have hreserve : reserveOut * e * reserveIn' ≤ reserveOut' * e' * reserveIn :=
    Nat.mul_le_mul hpriced hin
  have hboth : reserveOut * e * e' ≤ reserveOut' * e' * e :=
    calc reserveOut * e * e' ≤ reserveOut' * e * e' :=
          Nat.mul_le_mul_right _ (Nat.mul_le_mul_right _ hout)
      _ = reserveOut' * e' * e := by ring
  calc reserveOut * e * (reserveIn' + e') = reserveOut * e * reserveIn' + reserveOut * e * e' :=
        Nat.mul_add _ _ _
    _ ≤ reserveOut' * e' * reserveIn + reserveOut' * e' * e := Nat.add_le_add hreserve hboth
    _ = reserveOut' * e' * (reserveIn + e) := (Nat.mul_add _ _ _).symm

/-- What can be quoted can be quoted on better terms, where the input still fits. -/
theorem Quotable.mono {reserveIn reserveIn' reserveOut reserveOut' grossInput grossInput'
    lpFeeBps lpFeeBps' : ℕ} (h : Quotable reserveIn reserveOut grossInput lpFeeBps)
    (hpos : 0 < reserveIn') (hin : reserveIn' ≤ reserveIn) (hout : reserveOut ≤ reserveOut')
    (hgross : grossInput ≤ grossInput') (hrate : lpFeeBps' ≤ lpFeeBps)
    (hfits : reserveIn' + grossInput' < 2 ^ 64) :
    Quotable reserveIn' reserveOut' grossInput' lpFeeBps' where
  reserves := ⟨hpos, h.reserves.2.trans_le hout⟩
  input := h.input.trans_le hgross
  rate := hrate.trans_lt h.rate
  fits := hfits
  effective := h.effective.trans_le (effectiveInputOf_mono hgross hrate)
  output := h.output.trans_le (amountOutOf_mono hpos hin hout hgross hrate)

/-- One floor of a product pool: after an input of `e` against a reserve of at least `x`, what is
left of `y` still has the product with `x + e`. -/
theorem remaining_mul_le {x x' y e : ℕ} (hx : x ≤ x') :
    y * x ≤ (y - y * e / (x' + e)) * (x + e) := by
  have hfloor : y * e / (x' + e) * (x' + e) ≤ y * e := Nat.div_mul_le_self _ _
  generalize hout : y * e / (x' + e) = out at hfloor ⊢
  have hle : out ≤ y := by
    rw [← hout]
    apply Nat.div_le_of_le_mul
    rw [Nat.mul_comm y e]
    exact Nat.mul_le_mul_right y (Nat.le_add_left e x')
  obtain ⟨rest, rfl⟩ := Nat.exists_eq_add_of_le hle
  rw [Nat.add_sub_cancel_left]
  have hgain : out * x' ≤ rest * e := by
    rw [Nat.mul_add, Nat.add_mul] at hfloor
    omega
  have hcross : out * x ≤ out * x' := Nat.mul_le_mul_left out hx
  calc (out + rest) * x = out * x + rest * x := Nat.add_mul _ _ _
    _ ≤ rest * e + rest * x := by omega
    _ = rest * (x + e) := by ring

end ProgrammableSolana.Engines
