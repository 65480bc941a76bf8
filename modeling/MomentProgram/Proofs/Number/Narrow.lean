/-
Doubles are read, rounded and stored as they are.

The magnitude of a finite double is a significand of at most 53 bits, scaled (`Reading.exists_fields`). Rounded to the format of doubles it
stays what it is, because the step of the format divides it (`Format.round_fields`), and its bits are those that it was read from
(`Reading.magnitudeBits_fields`). So a double brought to the width of doubles is the same double (`Format.narrow_double`).
-/
import Mathlib
import MomentProgram.Proofs.Number.Rounding

namespace MomentProgram

namespace Reading

/-- a magnitude by the exponent field and the fraction field of a double -/
def ofFields (e f : ℕ) : ℕ := if e = 0 then f else (2 ^ 52 + f) * 2 ^ (e - 1)

/-- **A finite double is read from its fields.** -/
theorem exists_fields {x : Float} {negative : Bool} {m : ℕ} (h : ofFloat x = .finite negative m) :
    ∃ e f, e < 2047 ∧ f < 2 ^ 52 ∧ m = ofFields e f ∧ x.toBits.toNat = (if negative then 2 ^ 63 else 0) + (e * 2 ^ 52 + f) := by
  have hlt : x.toBits.toNat < 2 ^ 64 := x.toBits.toNat_lt
  simp only [ofFloat, Nat.pow_eq] at h
  split at h
  · split at h <;> cases h
  case isFalse hexponent =>
    have hfields : x.toBits.toNat = (if decide (2 ^ 63 ≤ x.toBits.toNat) = true then 2 ^ 63 else 0) +
        (x.toBits.toNat / 2 ^ 52 % 2 ^ 11 * 2 ^ 52 + x.toBits.toNat % 2 ^ 52) := by
      split
      case isTrue hsign => rw [decide_eq_true_iff] at hsign; omega
      case isFalse hsign => rw [decide_eq_true_iff] at hsign; omega
    refine ⟨x.toBits.toNat / 2 ^ 52 % 2 ^ 11, x.toBits.toNat % 2 ^ 52, by omega, Nat.mod_lt _ (by positivity), ?_, ?_⟩
    · split at h
      case isTrue hzero => cases h; exact (if_pos hzero).symm
      case isFalse hzero => cases h; exact (if_neg hzero).symm
    · split at h <;> cases h <;> exact hfields

variable {e f : ℕ}

theorem log2_ofFields (he : 0 < e) (hf : f < 2 ^ 52) : (ofFields e f).log2 = 52 + (e - 1) := by
  have hpos : 0 < (2 ^ 52 + f) * 2 ^ (e - 1) := by positivity
  rw [ofFields, if_neg he.ne', Nat.log2_eq_iff hpos.ne']
  constructor
  · rw [Nat.pow_add]
    exact Nat.mul_le_mul_right _ (by omega)
  · rw [show 52 + (e - 1) + 1 = 53 + (e - 1) by omega, Nat.pow_add]
    exact Nat.mul_lt_mul_of_pos_right (by omega) (by positivity)

theorem log2_fraction_lt (hf : f < 2 ^ 52) : f.log2 < 52 := by
  rcases Nat.eq_zero_or_pos f with rfl | hpos
  · decide
  · exact (Nat.log2_lt hpos.ne').2 hf

/-- **The bits of a magnitude are the fields it was read from.** -/
theorem magnitudeBits_fields (hf : f < 2 ^ 52) : magnitudeBits (ofFields e f) = e * 2 ^ 52 + f := by
  rcases Nat.eq_zero_or_pos e with rfl | he
  · have hshift : f.log2 - 52 = 0 := by have := log2_fraction_lt hf; omega
    simp only [magnitudeBits, ofFields, if_pos, hshift, Nat.pow_eq]
    omega
  · have hshift : 52 + (e - 1) - 52 = e - 1 := by omega
    simp only [magnitudeBits, log2_ofFields he hf, hshift, Nat.pow_eq]
    rw [ofFields, if_neg he.ne', Nat.mul_div_cancel _ (by positivity)]
    omega

end Reading

namespace Format

theorem nearestQuotient_mul (q : ℕ) {d : ℕ} (hd : 0 < d) : nearestQuotient (q * d) d = q := by
  simp only [nearestQuotient, Nat.mul_div_cancel q hd, Nat.mul_mod_left]
  rw [if_pos (by omega)]

theorem lt_pow_of_log2_lt {m k : ℕ} (h : m.log2 < k) : m < Nat.pow 2 k := Nat.lt_log2_self.trans_le (Nat.pow_le_pow_right two_pos h)

/-- a magnitude that the step of a format divides is rounded to itself -/
theorem round_of_step {g : Format} {m q : ℕ} (hq : m = q * Nat.pow 2 (g.step m)) (hm : m < Nat.pow 2 g.top) : g.round m 1 = some m := by
  have hexact : ∀ d, 0 < d → m = q * d → nearestQuotient m (1 * d) * d = m := by
    intro d hd h
    rw [Nat.one_mul, h, nearestQuotient_mul q hd]
  unfold round
  simp only [Nat.div_one, hexact (Nat.pow 2 (g.step m)) (Nat.two_pow_pos _) hq, if_pos hm]

/-- **A magnitude of the format of doubles is rounded to itself.** -/
theorem round_fields {e f : ℕ} (he : e < 2047) (hf : f < 2 ^ 52) : double.round (Reading.ofFields e f) 1 = some (Reading.ofFields e f) := by
  have hfraction := Reading.log2_fraction_lt hf
  rcases Nat.eq_zero_or_pos e with rfl | hpos
  · -- below the least step nothing is rounded
    have hfields : Reading.ofFields 0 f = f := if_pos rfl
    have hstep : double.step f = 0 := by
      simp only [step, double]
      omega
    have hlog : f.log2 < double.top := hfraction.trans (by decide)
    rw [hfields]
    exact round_of_step (q := f) (by rw [hstep]; exact (Nat.mul_one f).symm) (lt_pow_of_log2_lt hlog)
  · have hlog := Reading.log2_ofFields hpos hf
    have hstep : double.step (Reading.ofFields e f) = e - 1 := by
      rw [step, hlog]
      simp only [double]
      omega
    have htop : (Reading.ofFields e f).log2 < double.top := by
      rw [hlog]
      show _ < 2098
      omega
    exact round_of_step (q := 2 ^ 52 + f) (by rw [hstep, Reading.ofFields, if_neg hpos.ne']; rfl) (lt_pow_of_log2_lt htop)

/-- **A double brought to the width of doubles is the same double.** -/
theorem narrow_double (x : Float) : double.narrow x = x := by
  cases h : Reading.ofFloat x with
  | infinite negative => simp only [narrow, h]
  | nan => simp only [narrow, h]
  | finite negative m =>
    obtain ⟨e, f, he, hf, rfl, hbits⟩ := Reading.exists_fields h
    have hfloat : (Reading.finite negative (Reading.ofFields e f)).toFloat = x := by
      have hword : UInt64.ofNat ((if negative then Nat.pow 2 63 else 0) + Reading.magnitudeBits (Reading.ofFields e f)) = x.toBits := by
        rw [Reading.magnitudeBits_fields hf, Nat.pow_eq, ← hbits, UInt64.ofNat_toNat]
      show Float.ofBits (UInt64.ofNat _) = x
      rw [hword]
      apply Double.toBits_injective
      exact Double.toBits_ofBits (by rw [hbits]; cases negative <;> simp only [if_true, if_false, Bool.false_eq_true] <;> omega)
    simp only [narrow, h, round_fields he hf, hfloat]

end Format

end MomentProgram
