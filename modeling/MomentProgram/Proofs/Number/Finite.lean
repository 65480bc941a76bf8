/-
Finite doubles, and what a product of two of them can be.

A double is finite exactly if it unpacks to a zero or to a significand with an exponent (`unpack_of_finite`). The product of two such
forms is rounded, and rounding may overflow to an infinity, but no infinity and no zero times an infinity is left to make a NaN
(`isNaN_mul`); the product with a zero is a zero (`isZero_mul`). Only a NaN differs from itself (`beq_self`).
-/
import Mathlib
import MomentProgram.Proofs.Number.Double

namespace MomentProgram.Double

open Float.Model Float.Model.UnpackedFloat

/-! ## Unpacked forms of finite doubles -/

/-- the exponent of a word is its second digit to the base 2^52 -/
theorem exponent_toNat (b : BitVec binary64.numBits) : (unpackExponent b).toNat = b.toNat / 2 ^ 52 % 2 ^ 11 := by
  rw [unpackExponent, BitVec.toNat_cast, BitVec.extractLsb_toNat, Nat.shiftRight_eq_div_pow]
  rfl

/-- **A finite double unpacks to a zero or to a significand with an exponent.** -/
theorem unpack_of_finite {x : Float} (h : isFiniteDouble x = true) :
    (∃ s, x.toModel.unpack = .zero s) ∨ ∃ s m e hm, x.toModel.unpack = .finite s m e hm := by
  have hexponent : (unpackExponent x.toBits.toBitVec : BitVec binary64.exponentBits) ≠ -1#11 := by
    intro htop
    have hdigits : x.toBits.toNat / 2 ^ 52 % 2 ^ 11 = 2047 := by
      have := exponent_toNat x.toBits.toBitVec
      rw [htop] at this
      exact this.symm
    simp only [isFiniteDouble, Reading.ofFloat, Nat.pow_eq, hdigits, if_true] at h
    split_ifs at h
  have hunpack : x.toModel.unpack = unpack binary64 x.toBits.toBitVec := rfl
  rw [hunpack]
  rcases unpack_fields x.toBits.toBitVec with ⟨hE, -, -⟩ | ⟨hE, -, -⟩ | ⟨-, -, hu⟩ | ⟨-, hm, hu⟩ | ⟨-, -, hm, hu⟩
  · exact absurd hE hexponent
  · exact absurd hE hexponent
  · exact .inl ⟨_, hu⟩
  · exact .inr ⟨_, _, _, hm, hu⟩
  · exact .inr ⟨_, _, _, hm, hu⟩

theorem exists_unpack_of_isZero {x : Float} (h : IsZero x) : ∃ s, x.toModel.unpack = .zero s := by
  rcases h with rfl | rfl
  · exact ⟨.positive, rfl⟩
  · exact ⟨.negative, rfl⟩

theorem isNaN_of_finite {x : Float} (h : isFiniteDouble x = true) : x.isNaN = false := by
  apply isNaN_eq_false_iff.2
  rcases unpack_of_finite h with ⟨s, hx⟩ | ⟨s, m, e, hm, hx⟩
  · rw [hx]
    exact nofun
  · rw [hx]
    exact nofun

theorem isFinite_of_isZero {x : Float} (h : IsZero x) : isFiniteDouble x = true := by
  rcases h with rfl | rfl
  · decide
  · decide

/-- sign, exponent and mantissa make a NaN only if the exponent is the largest and the mantissa is not zero -/
theorem unpack_packComponents_ne {s : Sign} {e : BitVec 11} {m : BitVec 52} (h : e = -1#11 → m = 0#52) :
    unpack binary64 (packComponents binary64 s e m) ≠ .notANumber := by
  unfold UnpackedFloat.unpack
  simp only [unpackExponent_packComponents, unpackMantissa_packComponents]
  split_ifs with htop hm
  · exact nofun
  · exact absurd (h htop) hm
  · exact nofun
  · exact nofun
  · exact nofun

/-- **Only a NaN is packed as one:** what overflows is packed as an infinity. -/
theorem isNaN_pack {u : UnpackedFloat} (hu : u ≠ .notANumber) : (Float.ofModel (Float.Model.pack u)).isNaN = false := by
  have hstored : unpack binary64 (UnpackedFloat.pack binary64 u) ≠ .notANumber := by
    cases u with
    | notANumber => exact absurd rfl hu
    | infinity s => exact unpack_packComponents_ne fun _ => rfl
    | zero s => exact unpack_packComponents_ne fun h => absurd h (by decide)
    | finite s m e hm =>
      unfold UnpackedFloat.pack
      dsimp only
      split_ifs with hoverflow hnormal
      · exact unpack_packComponents_ne fun _ => rfl
      · refine unpack_packComponents_ne fun h => ?_
        -- the largest exponent overflows
        have hexponent := congrArg BitVec.toNat h
        rw [BitVec.toNat_ofNat] at hexponent
        have hbits : 2 ^ binary64.exponentBits = 2048 := rfl
        have hlargest : (-1#11 : BitVec 11).toNat = 2047 := rfl
        omega
      · exact unpack_packComponents_ne fun h => absurd h (by decide)
  exact isNaN_eq_false_iff.2 hstored

/-! ## Products -/

/-- rounding gives a zero or a significand with an exponent -/
theorem roundWithAccuracy_ne (s : Sign) (m : Nat) (e : Int) : roundWithAccuracy binary64 s m e .exact ≠ .notANumber := by
  intro h
  simp only [roundWithAccuracy] at h
  split_ifs at h

/-- **The product of two finite doubles is a number.** -/
theorem isNaN_mul {x y : Float} (hx : isFiniteDouble x = true) (hy : isFiniteDouble y = true) : (x * y).isNaN = false := by
  refine isNaN_pack (u := UnpackedFloat.mul binary64 x.toModel.unpack y.toModel.unpack) fun h => ?_
  rcases unpack_of_finite hx with ⟨s, hx⟩ | ⟨s, m, e, hm, hx⟩ <;> rcases unpack_of_finite hy with ⟨t, hy⟩ | ⟨t, n, f, hn, hy⟩ <;>
    rw [hx, hy] at h
  · cases h
  · cases h
  · cases h
  · exact roundWithAccuracy_ne _ _ _ h

/-- **Zero times a finite double is zero.** -/
theorem isZero_mul {x y : Float} (hx : IsZero x) (hy : isFiniteDouble y = true) : IsZero (x * y) := by
  obtain ⟨s, hx⟩ := exists_unpack_of_isZero hx
  have hproduct : ∃ t, UnpackedFloat.mul binary64 x.toModel.unpack y.toModel.unpack = .zero t := by
    rcases unpack_of_finite hy with ⟨t, hy⟩ | ⟨t, n, f, hn, hy⟩ <;> rw [hx, hy] <;> exact ⟨_, rfl⟩
  obtain ⟨t, hproduct⟩ := hproduct
  have hmul : x * y = Float.ofModel (Float.Model.pack (.zero t)) := by rw [← hproduct]; rfl
  rw [hmul]
  cases t with
  | positive => exact .inl rfl
  | negative => exact .inr rfl

/-! ## The test of equality -/

/-- **A number equals itself.** -/
theorem beq_self {x : Float} (hx : x.isNaN = false) : (x == x) = true := by
  show (x.toModel.unpack.compare x.toModel.unpack == some .eq) = true
  have hx' : UnpackedFloat.isNaN x.toModel.unpack = false := hx
  rw [beq_iff_eq]
  generalize x.toModel.unpack = u at hx'
  cases u with
  | notANumber => cases hx'
  | infinity s => cases s <;> rfl
  | zero s => rfl
  | finite s m e hm => cases s <;> simp [UnpackedFloat.compare]

theorem beq_of_isZero {x y : Float} (hx : IsZero x) (hy : IsZero y) : (x == y) = true := by
  rcases hx with rfl | rfl <;> rcases hy with rfl | rfl <;> decide

/-- two doubles that equal a third are equal -/
theorem beq_of_beq {x y z : Float} (hy : (x == y) = true) (hz : (x == z) = true) : (y == z) = true := by
  rcases eq_or_zero_of_beq hy with rfl | ⟨hx, hzero⟩
  · exact hz
  rcases eq_or_zero_of_beq hz with rfl | ⟨-, hzero'⟩
  · exact beq_of_isZero hzero hx
  · exact beq_of_isZero hzero hzero'

end MomentProgram.Double
