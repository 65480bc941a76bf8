/-
Doubles and sums read in exact rational arithmetic.

Every computation of the library is written over any number type with its operations, so it can be read in the rationals as well,
where nothing is rounded (`Scalar ℚ`). A finite double has an exact value there, `exactValue`; the other doubles have none and are
read as zero. Reading commutes with negation (`exactValue_neg`) and does not see the sign of a zero (`exactValue_eq_of_beq`).

Rounded sums depend on the order in which they are added. Exact ones do not: the blocked sum of a list, with its running sums and
halvings, is the sum of the list (`blockSum_eq_sum`).
-/
import Mathlib
import MomentProgram.Array.Sum
import MomentProgram.Proofs.Number.Double

namespace MomentProgram

instance : Scalar ℚ where
  zero := 0
  one := 1
  half := 1 / 2
  fromZero x := x
  isFinite _ := true

instance : ReflConstants ℚ where
  zero_beq := by decide
  one_beq := by decide

@[simp] theorem scalar_zero_rat : (Scalar.zero : ℚ) = 0 := rfl

@[simp] theorem scalar_one_rat : (Scalar.one : ℚ) = 1 := rfl

@[simp] theorem scalar_half_rat : (Scalar.half : ℚ) = 1 / 2 := rfl

@[simp] theorem scalar_fromZero_rat (x : ℚ) : Scalar.fromZero x = x := rfl

/-! ## The value of a double -/

namespace Reading

/-- the value of a reading; infinities and NaN have none and count as zero -/
def value : Reading → ℚ
  | .finite negative m => (if negative then -1 else 1) * (m / unitsPerOne)
  | _ => 0

/-- the reading with the other sign -/
def neg : Reading → Reading
  | .finite negative m => .finite (!negative) m
  | .infinite negative => .infinite (!negative)
  | .nan => .nan

theorem value_neg (r : Reading) : r.neg.value = -r.value := by
  cases r with
  | finite negative m =>
    show (if (!negative) = true then (-1 : ℚ) else 1) * (m / unitsPerOne) = -((if negative then -1 else 1) * (m / unitsPerOne))
    generalize (m : ℚ) / unitsPerOne = q
    cases negative <;> simp
  | infinite negative => exact neg_zero.symm
  | nan => exact neg_zero.symm

theorem testBit_top {n : Nat} (hn : n < 2 ^ 64) : n.testBit 63 = decide (2 ^ 63 ≤ n) := by
  rw [Nat.testBit_eq_decide_div_mod_eq]
  congr 1
  rw [eq_iff_iff]
  omega

/-- flipping the highest of 64 bits changes the sign and leaves exponent and fraction -/
theorem ofFloat_neg (x : Float) (hx : x.isNaN = false) : ofFloat (-x) = (ofFloat x).neg := by
  have hbits : (-x).toBits.toNat = x.toBits.toNat ^^^ 2 ^ 63 := by
    rw [Double.toBits_neg x hx, UInt64.toNat_xor]; rfl
  have hlt : x.toBits.toNat < 2 ^ 64 := x.toBits.toNat_lt
  simp only [ofFloat, hbits, Nat.pow_eq]
  generalize x.toBits.toNat = b at hlt
  have hsign : decide (2 ^ 63 ≤ b ^^^ 2 ^ 63) = !decide (2 ^ 63 ≤ b) := by
    have hflip : (b ^^^ 2 ^ 63).testBit 63 = !b.testBit 63 := by rw [Nat.testBit_xor, Nat.testBit_two_pow_self, Bool.xor_true]
    have hlt' : b ^^^ 2 ^ 63 < 2 ^ 64 := Nat.xor_lt_two_pow hlt (by norm_num)
    rw [← testBit_top hlt', ← testBit_top hlt, hflip]
  have hexp : (b ^^^ 2 ^ 63) / 2 ^ 52 % 2 ^ 11 = b / 2 ^ 52 % 2 ^ 11 := by
    rw [Nat.xor_div_two_pow, Nat.xor_mod_two_pow]; simp
  have hfrac : (b ^^^ 2 ^ 63) % 2 ^ 52 = b % 2 ^ 52 := by
    rw [Nat.xor_mod_two_pow]; simp
  rw [hsign, hexp, hfrac]
  split
  · split <;> rfl
  · split <;> rfl

end Reading

/-- the exact value of a double; one that is not finite has none and is read as zero -/
def exactValue (x : Float) : ℚ := (Reading.ofFloat x).value

@[simp] theorem exactValue_zero : exactValue 0.0 = 0 := by
  have h : Reading.ofFloat 0.0 = .finite false 0 := by decide
  rw [exactValue, h, Reading.value, Nat.cast_zero, zero_div, mul_zero]

/-- **Reading commutes with negation.** -/
@[simp] theorem exactValue_neg (x : Float) : exactValue (-x) = -exactValue x := by
  cases hnan : x.isNaN with
  | false => rw [exactValue, Reading.ofFloat_neg x hnan, Reading.value_neg, exactValue]
  | true => rw [Double.eq_nan hnan]; rfl

example : exactValue (-1.5) = -3 / 2 := by decide +kernel

/-- **The other sign of a finite double is finite,** and of an infinite one infinite. -/
theorem Double.isFinite_neg (x : Float) : isFiniteDouble (-x) = isFiniteDouble x := by
  cases hnan : x.isNaN with
  | false =>
    unfold isFiniteDouble
    rw [Reading.ofFloat_neg x hnan]
    cases Reading.ofFloat x <;> rfl
  | true =>
    rw [Double.eq_nan hnan]
    rfl

/-- equal doubles have the same exact value, zeros of either sign included -/
theorem exactValue_eq_of_beq {x y : Float} (h : (x == y) = true) : exactValue x = exactValue y := by
  have hzero : ∀ z, Double.IsZero z → exactValue z = 0 := by
    rintro z (rfl | rfl)
    · exact exactValue_zero
    · rw [exactValue_neg, exactValue_zero, neg_zero]
  rcases Double.eq_or_zero_of_beq h with rfl | ⟨hx, hy⟩
  · rfl
  · rw [hzero x hx, hzero y hy]

@[simp] theorem exactValue_fromZero (x : Float) : exactValue (Scalar.fromZero x) = exactValue x := by
  show exactValue (if x == 0.0 then 0.0 else x) = exactValue x
  split_ifs with h
  · exact (exactValue_eq_of_beq h).symm
  · rfl

/-! ## Sums -/

theorem foldl_add_eq (a : ℚ) (l : List ℚ) : l.foldl (· + ·) a = a + l.sum := by
  induction l generalizing a with
  | nil => simp
  | cons b l ih => rw [List.foldl_cons, ih, List.sum_cons]; ring

theorem addBlocks_eq (s : Lanes ℚ) (l : List ℚ) : addBlocks s l = s.total + l.sum := by
  fun_induction addBlocks s l with
  | case1 s a b c d e f g h rest ih => rw [ih]; simp only [Lanes.total, List.sum_cons]; ring
  | case2 s rest => exact foldl_add_eq _ _

theorem shortSum_eq (l : List ℚ) : shortSum l = l.sum := by
  unfold shortSum
  split
  · rw [addBlocks_eq]; simp only [Lanes.total, List.sum_cons]; ring
  · rw [foldl_add_eq]; simp

theorem halvedSum_eq (fuel : Nat) (l : List ℚ) : halvedSum fuel l = l.sum := by
  induction fuel generalizing l with
  | zero => exact shortSum_eq l
  | succ fuel ih =>
    unfold halvedSum
    split
    · exact shortSum_eq l
    · simp only [ih]
      rw [← List.sum_append, List.take_append_drop]

/-- **The exact sum does not depend on the blocks.** -/
theorem blockSum_eq_sum (l : List ℚ) : blockSum l = l.sum := halvedSum_eq l.length l

end MomentProgram
