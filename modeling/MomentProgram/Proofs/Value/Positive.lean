/-
Positive numbers and the doubles they stand for.

Numbers of every kind have an exact value, and whether a number is above zero is asked of that value and not of its double
(`Number.againstZero_iff`). The double is rounded. A whole number, a truth value or a double above zero is at least the least positive double
and stays above zero; a quotient or a decimal can be smaller than that, and up to half of it rounding takes it to zero
(`Number.PositiveAs`). Quotients are rounded at once (`ratioToFloat_cases`). Decimals beyond the reach of doubles are told by their digits
before anything is rounded, which agrees with rounding them (`Numeral.toFloat_cases`). So the two checks of a tolerance, on the double and on
the value, amount to `PositiveAs` (`Number.positiveAs_iff`).
-/
import Mathlib
import MomentProgram.Proofs.Number.Rounding
import MomentProgram.Value.Extent

namespace MomentProgram

/-! ## The value of a number -/

namespace Number

/-- the value of a real number; complex numbers, infinities and NaN have none and are read as zero -/
def value : Number → ℚ
  | .bool b => if b then 1 else 0
  | .int n => n
  | .float x => exactValue x
  | .ratio num den => num / den
  | .decimal (.finite negative digits e) => (if negative then -1 else 1) * (digits * 10 ^ e)
  | _ => 0

/-- a number that is no complex one, and if it is a quotient has a denominator -/
def IsQuantity : Number → Prop
  | .complex _ _ => False
  | .ratio _ den => 0 < den
  | _ => True

/-- whether a number is exact and may have a fraction of any size -/
def isFraction : Number → Bool
  | .ratio _ _ => true
  | .decimal _ => true
  | _ => false

/-- **A positive number and the finite double that it stands for.** The double is above zero, or the number is a quotient or a decimal of up
to half the least double, and the double is zero. -/
structure PositiveAs (n : Number) (x : Float) : Prop where
  conversion : n.toFloat = .ok x
  finite : isFiniteDouble x = true
  positive : 0 < n.value
  rounded : (vanishing < n.value ∧ 0.0 < x) ∨ (n.isFraction = true ∧ n.value ≤ vanishing ∧ x = 0.0)

end Number

/-! ## Rounded quotients and decimals -/

theorem ratioToFloat_eq : Number.ratioToFloat = fun num den => ((nearestDouble? num den).map Except.ok).getD (.error .tooLarge) := by
  delta Number.ratioToFloat
  funext num den
  generalize nearestDouble? num den = r
  cases r with
  | some x => rfl
  | none => rfl

/-- the double of a positive quotient is its rounded magnitude, if there is one -/
theorem ratioToFloat_ok {num : ℤ} {den : ℕ} {x : Float} (hnum : 0 < num) : Number.ratioToFloat num den = .ok x ↔
    ∃ m, Format.double.round (num.natAbs * unitsPerOne) den = some m ∧ (Reading.finite false m).toFloat = x := by
  have hsign : decide (num < 0) = false := decide_eq_false hnum.not_gt
  simp only [ratioToFloat_eq, nearestDouble?_eq, hsign]
  cases Format.double.round (num.natAbs * unitsPerOne) den with
  | none => exact iff_of_false nofun fun ⟨m, hm, _⟩ => nomatch hm
  | some k =>
    constructor
    · intro h
      exact ⟨k, rfl, Except.ok.inj h⟩
    · rintro ⟨m, hm, rfl⟩
      cases hm
      rfl

/-- **A positive quotient is rounded to a double above zero,** or it is too small for that and rounded to zero. -/
theorem ratioToFloat_cases {num : ℤ} {den : ℕ} {x : Float} (hnum : 0 < num) (hden : 0 < den)
    (h : Number.ratioToFloat num den = .ok x) :
    (vanishing < (num : ℚ) / den ∧ 0.0 < x) ∨ ((num : ℚ) / den ≤ vanishing ∧ x = 0.0) := by
  have habs : ((num.natAbs : ℕ) : ℚ) = num := by rw [Nat.cast_natAbs, abs_of_pos hnum]
  obtain ⟨m, hround, rfl⟩ := (ratioToFloat_ok hnum).1 h
  rw [← habs]
  exact rounded_cases hden hround

namespace Numeral

/-- a power of ten as a quotient of two natural ones -/
theorem ten_zpow_eq (e : ℤ) : (10 : ℚ) ^ e = ((10 ^ e.toNat : ℕ) : ℚ) / ((10 ^ (-e).toNat : ℕ) : ℚ) := by
  push_cast
  rw [← zpow_natCast, ← zpow_natCast, ← zpow_sub₀ (by norm_num), Int.toNat_sub_toNat_neg]

/-- a number is below the power of ten that counts its digits -/
theorem lt_ten_pow_length (digits : ℕ) : digits < 10 ^ (Nat.toDigits 10 digits).length :=
  (Nat.length_toDigits_le_iff (by decide) Nat.length_toDigits_pos).1 le_rfl

/-- a decimal is less than the power of ten that bounds its decade -/
theorem le_of_decade {digits k : ℕ} {e : ℤ} (h : e + ((Nat.toDigits 10 digits).length : ℤ) ≤ -k) :
    (digits : ℚ) * 10 ^ e ≤ 1 / ((Nat.pow 10 k : ℕ) : ℚ) := by
  have hdigits : (digits : ℚ) ≤ 10 ^ ((Nat.toDigits 10 digits).length : ℤ) := by
    rw [zpow_natCast]
    exact_mod_cast (lt_ten_pow_length digits).le
  calc (digits : ℚ) * 10 ^ e
      ≤ 10 ^ ((Nat.toDigits 10 digits).length : ℤ) * 10 ^ e := by gcongr
    _ = 10 ^ (e + ((Nat.toDigits 10 digits).length : ℤ)) := by rw [← zpow_add₀ (by norm_num), add_comm]
    _ ≤ 10 ^ (-k : ℤ) := zpow_le_zpow_right₀ (by norm_num) h
    _ = 1 / ((Nat.pow 10 k : ℕ) : ℚ) := by rw [zpow_neg, zpow_natCast, one_div, Nat.pow_eq, Nat.cast_pow, Nat.cast_ofNat]

/-- decimals below the reach of doubles are less than what vanishes -/
theorem le_vanishing_of_decade {digits : ℕ} {e : ℤ} (h : e + ((Nat.toDigits 10 digits).length : ℤ) < -decadeBound) :
    (digits : ℚ) * 10 ^ e ≤ vanishing := by
  -- twice the units of one have no more than that many decimal digits
  obtain ⟨k, hk, hunits⟩ : ∃ k : ℕ, decadeBound = k ∧ 2 * unitsPerOne ≤ Nat.pow 10 k := ⟨400, rfl, by decide +kernel⟩
  have hpos : 0 < 2 * unitsPerOne := Nat.mul_pos two_pos unitsPerOne_pos
  rw [hk] at h
  refine (le_of_decade h.le).trans ?_
  unfold vanishing
  generalize unitsPerOne = u at hunits hpos
  exact one_div_le_one_div_of_le (by exact_mod_cast hpos) (by exact_mod_cast hunits)

/-- **A positive decimal with a finite double is rounded to one above zero,** or it is too small for that and rounded to zero. -/
theorem toFloat_cases {digits : ℕ} {e : ℤ} (hdigits : 0 < digits) (hfinite : isFiniteDouble (finite false digits e).toFloat = true) :
    (vanishing < (digits : ℚ) * 10 ^ e ∧ 0.0 < (finite false digits e).toFloat) ∨
      ((digits : ℚ) * 10 ^ e ≤ vanishing ∧ (finite false digits e).toFloat = 0.0) := by
  have hinfinite : ¬ isFiniteDouble (Reading.infinite false).toFloat = true := by decide
  simp only [toFloat, reading, ofRatio_eq] at hfinite ⊢
  split_ifs at hfinite ⊢ with hsmall hlarge
  · exact .inr ⟨le_vanishing_of_decade (hsmall.resolve_left hdigits.ne'), rfl⟩
  · exact absurd hfinite hinfinite
  · have hvalue : (digits : ℚ) * 10 ^ e = ((digits * Nat.pow 10 e.toNat : ℕ) : ℚ) / ((Nat.pow 10 (-e).toNat : ℕ) : ℚ) := by
      rw [ten_zpow_eq, Nat.pow_eq, Nat.pow_eq, Nat.cast_mul, mul_div_assoc]
    rw [hvalue]
    cases hround : Format.double.round (digits * Nat.pow 10 e.toNat * unitsPerOne) (Nat.pow 10 (-e).toNat) with
    | some m => exact rounded_cases (Nat.pow_pos (by decide)) hround
    | none =>
      rw [hround] at hfinite
      exact absurd hfinite hinfinite

end Numeral

theorem Double.exists_reading {x : Float} (hfinite : isFiniteDouble x = true) : ∃ negative m, Reading.ofFloat x = .finite negative m := by
  unfold isFiniteDouble at hfinite
  split at hfinite
  · exact ⟨_, _, ‹_›⟩
  · cases hfinite

/-! ## The sign of a number -/

namespace Number

variable {n : Number} {c : Option Cell} {x : Float}

theorem numberToFloat_eq (hn : n.IsQuantity) : Value.numberToFloat n c = n.toFloat := by
  cases n with
  | complex re im => exact absurd hn id
  | _ => rfl

theorem againstZero_eq (hn : n.IsQuantity) : Value.againstZero n c =
    if n.isUndefined then .error .invalidDecimal else .ok (n.order? (.int 0) == some .lt, n.order? (.int 0) == some .eq) := by
  cases n with
  | complex re im => exact absurd hn id
  | _ => rfl

/-- an exact quotient is above zero if its numerator is -/
theorem againstZero_quotient (hn : n.IsQuantity) (hdefined : n.isUndefined = false) {a : ℤ} {b : ℕ}
    (hexact : n.toExact = some (.quotient a b)) : Value.againstZero n c = .ok (false, false) ↔ 0 < a := by
  have horder : n.order? (.int 0) = some (compare (a * 1) (0 * b)) := by
    simp only [order?, hexact]
    rfl
  rw [againstZero_eq hn, hdefined, if_neg Bool.false_ne_true, horder, mul_one, zero_mul]
  rcases lt_trichotomy a 0 with hneg | hzero | hpos
  · rw [compare_lt_iff_lt.2 hneg]
    exact iff_of_false nofun hneg.not_gt
  · rw [compare_eq_iff_eq.2 hzero]
    exact iff_of_false nofun hzero.not_gt
  · rw [compare_gt_iff_gt.2 hpos]
    exact iff_of_true rfl hpos

/-- a signed magnitude is above zero if the sign is plus and the magnitude is, as a quotient -/
theorem signed_pos_iff {negative : Bool} {q : ℚ} (hq : 0 ≤ q) : 0 < (if negative then -1 else 1) * q ↔ negative = false ∧ 0 < q := by
  cases negative with
  | false => rw [if_neg Bool.false_ne_true, one_mul, eq_self_iff_true, true_and]
  | true =>
    rw [if_pos rfl, neg_one_mul]
    exact iff_of_false (by linarith) fun h => Bool.noConfusion h.1

/-- and as a whole number -/
theorem signed_natCast_pos_iff {negative : Bool} {k : ℕ} : (0 : ℤ) < (if negative then -(k : ℤ) else k) ↔ negative = false ∧ 0 < k := by
  cases negative with
  | false => rw [if_neg Bool.false_ne_true, Int.natCast_pos, eq_self_iff_true, true_and]
  | true =>
    rw [if_pos rfl]
    exact iff_of_false (by omega) fun h => Bool.noConfusion h.1

theorem value_float {y : Float} {negative : Bool} {m : ℕ} (hreading : Reading.ofFloat y = .finite negative m) :
    (float y).value = (if negative then -1 else 1) * (m / unitsPerOne) := by
  rw [value, exactValue, hreading]
  rfl

/-- **A number with a finite double is an exact quotient,** and the numerator has the sign of its value. -/
theorem exists_exact (hn : n.IsQuantity) (hx : n.toFloat = .ok x) (hfinite : isFiniteDouble x = true) :
    n.isUndefined = false ∧ ∃ a b, n.toExact = some (.quotient a b) ∧ (0 < a ↔ 0 < n.value) := by
  cases n with
  | bool b =>
    refine ⟨rfl, _, _, rfl, ?_⟩
    cases b with
    | false => exact iff_of_false (lt_irrefl 0) (lt_irrefl 0)
    | true => exact iff_of_true one_pos one_pos
  | int k => exact ⟨rfl, k, 1, rfl, Int.cast_pos.symm⟩
  | float y =>
    obtain rfl : y = x := Except.ok.inj hx
    obtain ⟨negative, m, hreading⟩ := Double.exists_reading hfinite
    have hunits : (0 : ℚ) < unitsPerOne := Nat.cast_pos.2 unitsPerOne_pos
    have hexact : toExact (float y) = some (.quotient (if negative then -(m : ℤ) else m) unitsPerOne) := by
      rw [toExact, Exact.ofFloat?, hreading]
    refine ⟨rfl, _, _, hexact, ?_⟩
    rw [value_float hreading, signed_natCast_pos_iff, signed_pos_iff (div_nonneg (Nat.cast_nonneg m) hunits.le),
      div_pos_iff_of_pos_right hunits, Nat.cast_pos]
  | complex re im => exact absurd hn id
  | ratio num den =>
    have hden : (0 : ℚ) < den := Nat.cast_pos.2 hn
    refine ⟨rfl, num, den, rfl, ?_⟩
    rw [value, div_pos_iff_of_pos_right hden, Int.cast_pos]
  | decimal d =>
    cases d with
    | undefined negative signalling payload =>
      cases signalling with
      | true => cases hx
      | false =>
        obtain rfl : Numeral.nan.toFloat = x := Except.ok.inj hx
        exact absurd hfinite (by decide)
    | infinite negative =>
      cases hx
      cases negative <;> exact absurd hfinite (by decide)
    | finite negative digits e =>
      -- the exponent is clamped there, which changes the quotient but not its sign
      let p : ℕ := Nat.pow 10 (max (-Exact.decimalReach) (min Exact.decimalReach e)).toNat
      have hp : 0 < p := Nat.pow_pos (by norm_num)
      obtain ⟨b, hexact⟩ : ∃ b : ℕ, toExact (decimal (.finite negative digits e)) =
          some (.quotient (if negative then -((digits : ℤ) * p) else digits * p) b) := ⟨_, rfl⟩
      rw [← Nat.cast_mul] at hexact
      have hpow : (0 : ℚ) < 10 ^ e := by positivity
      refine ⟨rfl, _, _, hexact, ?_⟩
      rw [value, signed_natCast_pos_iff, signed_pos_iff (mul_nonneg (Nat.cast_nonneg digits) hpow.le),
        mul_pos_iff_of_pos_right hpow, Nat.cast_pos, Nat.mul_pos_iff_of_pos_right hp]

/-- **Whether a number is above zero is asked of its value.** -/
theorem againstZero_iff (hn : n.IsQuantity) (hx : n.toFloat = .ok x) (hfinite : isFiniteDouble x = true) :
    Value.againstZero n c = .ok (false, false) ↔ 0 < n.value := by
  obtain ⟨hdefined, a, b, hexact, hsign⟩ := exists_exact hn hx hfinite
  exact (againstZero_quotient hn hdefined hexact).trans hsign

/-! ## Rounding by kinds -/

theorem rounded_int {k : ℤ} (hk : 0 < k) (hx : ratioToFloat k 1 = .ok x) : vanishing < (k : ℚ) ∧ 0.0 < x := by
  have hkept : vanishing < (k : ℚ) := vanishing_lt_int hk
  rcases ratioToFloat_cases hk one_pos hx with ⟨-, hpos⟩ | ⟨hle, -⟩
  · exact ⟨hkept, hpos⟩
  · rw [Nat.cast_one, div_one] at hle
    exact absurd hkept hle.not_gt

theorem rounded_float (hfinite : isFiniteDouble x = true) (hpos : 0 < (float x).value) : vanishing < (float x).value ∧ 0.0 < x := by
  have hunits : (0 : ℚ) < unitsPerOne := Nat.cast_pos.2 unitsPerOne_pos
  obtain ⟨negative, m, hreading⟩ := Double.exists_reading hfinite
  rw [value_float hreading] at hpos ⊢
  obtain ⟨rfl, hmagnitude⟩ := (signed_pos_iff (div_nonneg (Nat.cast_nonneg m) hunits.le)).1 hpos
  have hm : 0 < m := Nat.cast_pos.1 ((div_pos_iff_of_pos_right hunits).1 hmagnitude)
  rw [if_neg Bool.false_ne_true, one_mul]
  exact ⟨vanishing_lt_units hm, Double.pos_of_reading hreading hm⟩

theorem rounded_decimal {negative : Bool} {digits : ℕ} {e : ℤ} (hpos : 0 < (decimal (.finite negative digits e)).value)
    (hfinite : isFiniteDouble (Numeral.finite negative digits e).toFloat = true) :
    (vanishing < (decimal (.finite negative digits e)).value ∧ 0.0 < (Numeral.finite negative digits e).toFloat) ∨
      ((decimal (.finite negative digits e)).value ≤ vanishing ∧ (Numeral.finite negative digits e).toFloat = 0.0) := by
  have hpow : (0 : ℚ) < 10 ^ e := by positivity
  rw [value] at hpos ⊢
  obtain ⟨rfl, hproduct⟩ := (signed_pos_iff (mul_nonneg (Nat.cast_nonneg digits) hpow.le)).1 hpos
  have hdigits : 0 < digits := Nat.cast_pos.1 ((mul_pos_iff_of_pos_right hpow).1 hproduct)
  rw [if_neg Bool.false_ne_true, one_mul]
  exact Numeral.toFloat_cases hdigits hfinite

/-- **A number above zero with a finite double:** the double is above zero as well, unless the number vanishes. -/
theorem positiveAs_of_pos (hn : n.IsQuantity) (hx : n.toFloat = .ok x) (hfinite : isFiniteDouble x = true) (hpos : 0 < n.value) :
    n.PositiveAs x := by
  refine ⟨hx, hfinite, hpos, ?_⟩
  cases n with
  | bool b =>
    cases b with
    | false => exact absurd hpos (lt_irrefl 0)
    | true =>
      cases hx
      have hone : vanishing < ((1 : ℤ) : ℚ) := vanishing_lt_int one_pos
      rw [Int.cast_one] at hone
      exact .inl ⟨hone, by decide⟩
  | int k => exact .inl (rounded_int (Int.cast_pos.1 hpos) hx)
  | float y =>
    obtain rfl : y = x := Except.ok.inj hx
    exact .inl (rounded_float hfinite hpos)
  | complex re im => exact absurd hn id
  | ratio num den =>
    have hden : (0 : ℚ) < den := Nat.cast_pos.2 hn
    have hnum : 0 < num := Int.cast_pos.1 ((div_pos_iff_of_pos_right hden).1 hpos)
    exact (ratioToFloat_cases hnum hn hx).imp_right fun h => ⟨rfl, h⟩
  | decimal d =>
    cases d with
    | undefined negative signalling payload => exact absurd hpos (lt_irrefl 0)
    | infinite negative => exact absurd hpos (lt_irrefl 0)
    | finite negative digits e =>
      obtain rfl : (Numeral.finite negative digits e).toFloat = x := Except.ok.inj hx
      exact (rounded_decimal hpos hfinite).imp_right fun h => ⟨rfl, h⟩

/-- **Every positive quotient within the range of doubles** stands for its rounded magnitude. -/
theorem positiveAs_ratio {num : ℤ} {den m : ℕ} (hnum : 0 < num) (hden : 0 < den)
    (hround : Format.double.round (num.natAbs * unitsPerOne) den = some m) :
    (ratio num den).PositiveAs (Reading.finite false m).toFloat := by
  have hconversion : (ratio num den).toFloat = ratioToFloat num den := rfl
  have hdouble : ratioToFloat num den = .ok (Reading.finite false m).toFloat := (ratioToFloat_ok hnum).2 ⟨m, hround, rfl⟩
  have hfinite : isFiniteDouble (Reading.finite false m).toFloat = true := Double.isFinite_toFloat (Format.round_lt hround)
  exact positiveAs_of_pos hden (hconversion.trans hdouble) hfinite (div_pos (Int.cast_pos.2 hnum) (Nat.cast_pos.2 hden))

/-- **The check of a tolerance is the one for a positive number with a finite double.** -/
theorem positiveAs_iff (hn : n.IsQuantity) (c : Option Cell) : n.PositiveAs x ↔
    Value.numberToFloat n c = .ok x ∧ isFiniteDouble x = true ∧ Value.againstZero n c = .ok (false, false) := by
  rw [numberToFloat_eq hn]
  constructor
  · intro h
    exact ⟨h.conversion, h.finite, (againstZero_iff hn h.conversion h.finite).2 h.positive⟩
  · rintro ⟨hx, hfinite, hzero⟩
    exact positiveAs_of_pos hn hx hfinite ((againstZero_iff hn hx hfinite).1 hzero)

end Number

end MomentProgram
