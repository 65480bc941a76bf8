/-
Positive numbers rounded to doubles.

A quotient of natural numbers is rounded to a magnitude, a count of units 2^-1074, and that to the bits of a double. The nearest natural
number to a quotient is zero exactly up to one half (`nearestQuotient_eq_zero_iff`), and coarser steps are taken only for quotients that are
far beyond; so a magnitude is zero exactly if the quotient is at most half a unit (`round_eq_zero_iff`). Every magnitude that a double can
hold is stored below the bits of infinity (`magnitudeBits_lt`), so it is read back as a finite number, positive unless it is zero
(`ofFloat_toFloat`), and a double that is read so is above zero (`pos_of_reading`). Together: of the positive quotients exactly those above
2^-1075 are rounded to a double above zero, and all others to zero (`rounded_cases`).
-/
import Mathlib
import MomentProgram.Proofs.Number.Exact
import MomentProgram.Proofs.Number.Order

namespace MomentProgram

open Float.Model Float.Model.UnpackedFloat

/-! ## Doubles above zero -/

namespace Double

/-- the sign of a word is its highest bit -/
theorem sign_toNat (b : BitVec binary64.numBits) : (unpackSign b).toNat = b.toNat / 2 ^ 63 % 2 := by
  rw [unpackSign, BitVec.toNat_cast, BitVec.extractLsb_toNat, Nat.shiftRight_eq_div_pow]
  rfl

theorem mantissa_toNat (b : BitVec binary64.numBits) : (unpackMantissa b).toNat = b.toNat % 2 ^ 52 := by
  rw [unpackMantissa, BitVec.toNat_cast, BitVec.extractLsb_toNat, Nat.shiftRight_zero]
  rfl

/-- **A double that is read as a positive number is above zero.** -/
theorem pos_of_reading {x : Float} {m : ℕ} (h : Reading.ofFloat x = .finite false m) (hm : 0 < m) : 0.0 < x := by
  let b : BitVec binary64.numBits := x.toBits.toBitVec
  have hexponent : (unpackExponent b).toNat = x.toBits.toNat / 2 ^ 52 % 2 ^ 11 := exponent_toNat b
  have hmantissa : (unpackMantissa b).toNat = x.toBits.toNat % 2 ^ 52 := mantissa_toNat b
  have hlt : x.toBits.toNat < 2 ^ 64 := x.toBits.toNat_lt
  have hlargest : (-1#11 : BitVec 11).toNat = 2047 := rfl
  simp only [Reading.ofFloat, Nat.pow_eq] at h
  -- the highest bit is not set, and exponent and mantissa are not both zero
  have hpositive : x.toBits.toNat < 2 ^ 63 ∧ x.toBits.toNat / 2 ^ 52 % 2 ^ 11 ≠ 2047 ∧
      ¬ (x.toBits.toNat / 2 ^ 52 % 2 ^ 11 = 0 ∧ x.toBits.toNat % 2 ^ 52 = 0) := by
    by_cases htop : x.toBits.toNat / 2 ^ 52 % 2 ^ 11 = 2047
    · rw [if_pos htop] at h
      split_ifs at h
    · rw [if_neg htop] at h
      by_cases hbottom : x.toBits.toNat / 2 ^ 52 % 2 ^ 11 = 0
      · rw [if_pos hbottom] at h
        injection h with hsign hfraction
        rw [decide_eq_false_iff_not, not_le] at hsign
        exact ⟨hsign, htop, fun hzero => hm.ne' (hfraction.symm.trans hzero.2)⟩
      · rw [if_neg hbottom] at h
        injection h with hsign hmagnitude
        rw [decide_eq_false_iff_not, not_le] at hsign
        exact ⟨hsign, htop, fun hzero => hbottom hzero.1⟩
  obtain ⟨hhigh, htop, hnonzero⟩ := hpositive
  have hsign : Sign.ofBitVec (unpackSign b) = .positive := by
    have hbit : unpackSign b = 0#1 := by
      apply BitVec.eq_of_toNat_eq
      have hdigit : (unpackSign b).toNat = x.toBits.toNat / 2 ^ 63 % 2 := sign_toNat b
      rw [hdigit, Nat.div_eq_of_lt hhigh]
      rfl
    rw [hbit]
    rfl
  have hzero : (0.0 : Float).toModel.unpack = .zero .positive := rfl
  have hunpack : x.toModel.unpack = UnpackedFloat.unpack binary64 b := rfl
  rw [lt_iff_compare, hzero, hunpack]
  rcases unpack_fields b with ⟨hE, -, -⟩ | ⟨hE, -, -⟩ | ⟨hE, hM, -⟩ | ⟨-, hm, hu⟩ | ⟨-, -, hm, hu⟩
  · rw [hE, hlargest] at hexponent
    exact absurd hexponent.symm htop
  · rw [hE, hlargest] at hexponent
    exact absurd hexponent.symm htop
  · rw [hE] at hexponent
    rw [hM] at hmantissa
    exact absurd ⟨hexponent.symm, hmantissa.symm⟩ hnonzero
  · rw [hu, hsign]
    rfl
  · rw [hu, hsign]
    rfl

/-- bits that are no NaN are the bits of a double -/
theorem toBits_ofBits {b : UInt64} (h : b.toNat / 2 ^ 52 % 2 ^ 11 ≠ 2047) : (Float.ofBits b).toBits = b := by
  have hvalid : binary64.Valid b.toBitVec := by
    refine ⟨fun hlargest _ => ?_⟩
    have hexponent : (unpackExponent b.toBitVec : BitVec binary64.exponentBits).toNat = b.toNat / 2 ^ 52 % 2 ^ 11 :=
      exponent_toNat b.toBitVec
    rw [hlargest] at hexponent
    exact absurd hexponent.symm h
  apply UInt64.toBitVec_inj.1
  exact pack_unpack b.toBitVec hvalid

/-- **Bits below those of infinity are read as a positive number.** -/
theorem ofFloat_ofBits {n : ℕ} (hpos : 0 < n) (hlt : n < 2047 * 2 ^ 52) :
    ∃ m, 0 < m ∧ Reading.ofFloat (Float.ofBits (UInt64.ofNat n)) = .finite false m := by
  have hn : (UInt64.ofNat n).toNat = n := UInt64.toNat_ofNat_of_lt' (hlt.trans (by decide))
  have hexponent : n / 2 ^ 52 % 2 ^ 11 ≠ 2047 := by omega
  have hsign : decide (2 ^ 63 ≤ n) = false := decide_eq_false (by omega)
  have hbits : (Float.ofBits (UInt64.ofNat n)).toBits.toNat = n := by
    rw [toBits_ofBits (by rwa [hn]), hn]
  simp only [Reading.ofFloat, Nat.pow_eq, hbits, hsign]
  rw [if_neg hexponent]
  split_ifs with hbottom
  · exact ⟨n % 2 ^ 52, by omega, rfl⟩
  · exact ⟨(2 ^ 52 + n % 2 ^ 52) * 2 ^ (n / 2 ^ 52 % 2 ^ 11 - 1), by positivity, rfl⟩

theorem log2_lt_of_lt_pow {m k : ℕ} (hm : 0 < m) (hlt : m < Nat.pow 2 k) : m.log2 < k := (Nat.log2_lt hm.ne').2 hlt

/-- the bits of a magnitude stay below those of infinity -/
theorem magnitudeBits_lt {m : ℕ} (hm : 0 < m) (hlt : m < Nat.pow 2 Format.double.top) :
    0 < Reading.magnitudeBits m ∧ Reading.magnitudeBits m < 2047 * 2 ^ 52 := by
  have htop : Format.double.top = 2098 := rfl
  have hlog : m.log2 < Format.double.top := log2_lt_of_lt_pow hm hlt
  have hscale : 0 < 2 ^ (m.log2 - 52) := Nat.two_pow_pos _
  have hlow : 1 ≤ m / 2 ^ (m.log2 - 52) := by
    rw [Nat.le_div_iff_mul_le hscale, Nat.one_mul]
    exact le_trans (Nat.pow_le_pow_right two_pos (Nat.sub_le _ _)) (Nat.log2_self_le hm.ne')
  have hhigh : m / 2 ^ (m.log2 - 52) < 2 ^ 53 := by
    rw [Nat.div_lt_iff_lt_mul hscale, ← Nat.pow_add]
    exact lt_of_lt_of_le Nat.lt_log2_self (Nat.pow_le_pow_right two_pos (by omega))
  simp only [Reading.magnitudeBits, Nat.pow_eq]
  rcases Nat.eq_zero_or_pos (m.log2 - 52) with hs | hs
  · omega
  · omega

/-- a positive magnitude that a double can hold is read back as one -/
theorem ofFloat_toFloat {m : ℕ} (hm : 0 < m) (hlt : m < Nat.pow 2 Format.double.top) :
    ∃ k, 0 < k ∧ Reading.ofFloat (Reading.finite false m).toFloat = .finite false k := by
  obtain ⟨hpos, hbits⟩ := magnitudeBits_lt hm hlt
  have hfloat : (Reading.finite false m).toFloat = Float.ofBits (UInt64.ofNat (Reading.magnitudeBits m)) :=
    congrArg (fun n => Float.ofBits (UInt64.ofNat n)) (Nat.zero_add (Reading.magnitudeBits m))
  rw [hfloat]
  exact ofFloat_ofBits hpos hbits

/-- **A magnitude that a double can hold is stored as a finite one,** and a positive magnitude as one above zero. -/
theorem isFinite_toFloat {m : ℕ} (hlt : m < Nat.pow 2 Format.double.top) : isFiniteDouble (Reading.finite false m).toFloat = true := by
  rcases Nat.eq_zero_or_pos m with rfl | hm
  · decide
  · obtain ⟨k, -, hreading⟩ := ofFloat_toFloat hm hlt
    rw [isFiniteDouble, hreading]

theorem pos_toFloat {m : ℕ} (hm : 0 < m) (hlt : m < Nat.pow 2 Format.double.top) : 0.0 < (Reading.finite false m).toFloat := by
  obtain ⟨k, hk, hreading⟩ := ofFloat_toFloat hm hlt
  exact pos_of_reading hreading hk

end Double

/-! ## Rounding to magnitudes -/

namespace Format

/-- **A quotient is nearest to zero exactly up to one half.** -/
theorem nearestQuotient_eq_zero_iff {num den : ℕ} (hden : 0 < den) : nearestQuotient num den = 0 ↔ 2 * num ≤ den := by
  have hdivmod : den * (num / den) + num % den = num := Nat.div_add_mod num den
  have hmod : num % den < den := Nat.mod_lt num hden
  rcases Nat.eq_zero_or_pos (num / den) with hq | hq
  · have hr : num % den = num := by rw [hq, Nat.mul_zero, Nat.zero_add] at hdivmod; exact hdivmod
    simp only [nearestQuotient, hq, hr]
    rcases lt_trichotomy (2 * num) den with hlt | heq | hgt
    · rw [if_pos hlt]
      exact iff_of_true rfl hlt.le
    · rw [if_neg heq.not_lt, if_neg heq.not_gt]
      exact iff_of_true rfl heq.le
    · rw [if_neg hgt.not_gt, if_pos hgt]
      exact iff_of_false (Nat.succ_ne_zero 0) hgt.not_ge
  · have hle : den ≤ den * (num / den) := Nat.le_mul_of_pos_right den hq
    refine iff_of_false (fun hzero => ?_) (by omega)
    simp only [nearestQuotient] at hzero
    split_ifs at hzero <;> omega

/-- **A magnitude is zero exactly for quotients up to half a unit.** -/
theorem round_eq_zero_iff {num den m : ℕ} (hden : 0 < den) (h : Format.double.round num den = some m) : m = 0 ↔ 2 * num ≤ den := by
  simp only [round] at h
  split_ifs at h with htop
  cases h
  have hscale : 0 < Nat.pow 2 (Format.double.step (num / den)) := Nat.pow_pos two_pos
  rw [Nat.mul_eq_zero, or_iff_left hscale.ne', nearestQuotient_eq_zero_iff (Nat.mul_pos hden hscale)]
  rcases Nat.eq_zero_or_pos (num / den) with hq | hq
  · have hstep : Format.double.step (num / den) = 0 := by rw [hq]; rfl
    rw [hstep, Nat.pow_eq, Nat.pow_zero, Nat.mul_one]
  · -- the step is no more than the quotient
    have hstep : Nat.pow 2 (Format.double.step (num / den)) ≤ num / den := by
      refine le_trans (Nat.pow_le_pow_right two_pos ?_) (Nat.log2_self_le hq.ne')
      simp only [step, Format.double]
      omega
    have hle : den * Nat.pow 2 (Format.double.step (num / den)) ≤ num :=
      (Nat.mul_le_mul_left den hstep).trans (Nat.mul_div_le num den)
    have hden' : den ≤ den * Nat.pow 2 (Format.double.step (num / den)) := Nat.le_mul_of_pos_right den hscale
    omega

theorem round_lt {num den m : ℕ} (h : Format.double.round num den = some m) : m < Nat.pow 2 Format.double.top := by
  simp only [round] at h
  split_ifs at h with htop
  cases h
  exact htop

end Format

theorem unitsPerOne_pos : 0 < unitsPerOne := by
  unfold unitsPerOne
  generalize 1074 = k
  exact Nat.two_pow_pos k

/-- the greatest number that is rounded to zero: half of the least positive double -/
def vanishing : ℚ := 1 / (2 * unitsPerOne)

/-- every positive number of units is more than what vanishes -/
theorem vanishing_lt_units {m : ℕ} (hm : 0 < m) : vanishing < (m : ℚ) / unitsPerOne := by
  have hunits : (0 : ℚ) < unitsPerOne := Nat.cast_pos.2 unitsPerOne_pos
  have hone : (1 : ℚ) ≤ m := Nat.one_le_cast.2 hm
  unfold vanishing
  generalize (unitsPerOne : ℚ) = u at hunits
  rw [div_lt_div_iff₀ (by positivity) hunits]
  nlinarith

/-- and so is every positive whole number -/
theorem vanishing_lt_int {n : ℤ} (hn : 0 < n) : vanishing < (n : ℚ) := by
  have hunits : (1 : ℚ) ≤ unitsPerOne := Nat.one_le_cast.2 unitsPerOne_pos
  have hone : (1 : ℚ) ≤ n := by exact_mod_cast hn
  unfold vanishing
  generalize (unitsPerOne : ℚ) = u at hunits
  calc 1 / (2 * u) < 1 := by
        rw [div_lt_one (by linarith)]
        linarith
    _ ≤ (n : ℚ) := hone

/-- **A quotient is rounded to a double above zero if it is above half of the least one,** and otherwise to zero. -/
theorem rounded_cases {num den m : ℕ} (hden : 0 < den) (h : Format.double.round (num * unitsPerOne) den = some m) :
    (vanishing < (num : ℚ) / den ∧ 0.0 < (Reading.finite false m).toFloat) ∨
      ((num : ℚ) / den ≤ vanishing ∧ (Reading.finite false m).toFloat = 0.0) := by
  have hzero : m = 0 ↔ (num : ℚ) / den ≤ vanishing := by
    rw [Format.round_eq_zero_iff hden h, vanishing]
    have hunits : 0 < unitsPerOne := unitsPerOne_pos
    generalize unitsPerOne = u at hunits
    rw [div_le_div_iff₀ (by exact_mod_cast hden) (by positivity), one_mul, mul_left_comm]
    exact_mod_cast Iff.rfl
  rcases Nat.eq_zero_or_pos m with hm | hm
  · refine .inr ⟨hzero.1 hm, ?_⟩
    rw [hm]
    rfl
  · exact .inl ⟨lt_of_not_ge fun hle => hm.ne' (hzero.2 hle), Double.pos_toFloat hm (Format.round_lt h)⟩

/-! ## The roundings of the library

A match on a rounded quotient cannot be opened at its arguments, since that asks for the value of the quotient; the functions are equal as
functions. -/

theorem ofRatio_eq : Reading.ofRatio = fun f negative num den =>
    ((f.round (num * unitsPerOne) den).map (Reading.finite negative)).getD (.infinite negative) := by
  delta Reading.ofRatio
  funext f negative num den
  generalize f.round (num * unitsPerOne) den = r
  cases r with
  | some m => rfl
  | none => rfl

theorem nearestDouble?_eq : nearestDouble? = fun num den =>
    (Format.double.round (num.natAbs * unitsPerOne) den).map fun m => (Reading.finite (decide (num < 0)) m).toFloat := by
  delta nearestDouble?
  funext num den
  generalize Format.double.round (num.natAbs * unitsPerOne) den = r
  cases r with
  | some m => rfl
  | none => rfl

end MomentProgram
