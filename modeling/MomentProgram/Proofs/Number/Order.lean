/-
The order of doubles.

Doubles are compared in their unpacked forms, and a comparison has a result exactly if neither side is a NaN. Where it has one, the two
directions mirror each other (`compare_swap`), so what is not less is at least as great (`le_of_not_lt`); with a NaN a comparison and its
mirror both fail. Magnitudes and products by a number other than zero bring no NaN in (`isNaN_abs`, `isNaN_mul_of_ne_zero`).
-/
import Mathlib
import MomentProgram.Proofs.Number.Finite

namespace MomentProgram.Double

open Float.Model Float.Model.UnpackedFloat

/-! ## Comparisons -/

theorem lt_iff_compare {x y : Float} : x < y ↔ x.toModel.unpack.compare y.toModel.unpack = some .lt := by
  show decide ((x.toModel.unpack.compare y.toModel.unpack == some .lt) = true) = true ↔ _
  rw [decide_eq_true_eq, beq_iff_eq]

theorem le_iff_compare {x y : Float} : x ≤ y ↔ ∃ o, x.toModel.unpack.compare y.toModel.unpack = some o ∧ o.isLE = true := by
  show decide ((x.toModel.unpack.compare y.toModel.unpack).any (·.isLE) = true) = true ↔ _
  rw [decide_eq_true_eq, Option.any_eq_true]

/-- **The two directions of a comparison mirror each other.** -/
theorem compare_swap (u v : UnpackedFloat) : v.compare u = (u.compare v).map Ordering.swap := by
  have hmagnitude : ∀ (e f : Int) (m n : Nat), (compare f e).then (compare n m) = ((compare e f).then (compare m n)).swap := by
    intro e f m n
    rw [Ordering.swap_then, ← Std.OrientedCmp.eq_swap, ← Std.OrientedCmp.eq_swap]
  rcases u with ⟨_ | _⟩ | _ | ⟨_ | _⟩ | ⟨_ | _, m, e, hm⟩ <;> rcases v with ⟨_ | _⟩ | _ | ⟨_ | _⟩ | ⟨_ | _, n, f, hn⟩
  -- only two numbers of one sign are compared by their magnitudes
  case finite.negative.finite.negative => exact congrArg (some ·.swap) (hmagnitude e f m n)
  case finite.positive.finite.positive => exact congrArg some (hmagnitude e f m n)
  all_goals rfl

/-- numbers have an order -/
theorem exists_compare {u v : UnpackedFloat} (hu : u ≠ .notANumber) (hv : v ≠ .notANumber) : ∃ o, u.compare v = some o := by
  rcases u with ⟨_ | _⟩ | _ | ⟨_ | _⟩ | ⟨_ | _, m, e, hm⟩
  case notANumber => exact absurd rfl hu
  all_goals
    rcases v with ⟨_ | _⟩ | _ | ⟨_ | _⟩ | ⟨_ | _, n, f, hn⟩
    case notANumber => exact absurd rfl hv
    all_goals exact ⟨_, rfl⟩

/-- nothing is less than a NaN -/
theorem isNaN_of_lt {x y : Float} (h : x < y) : y.isNaN = false := by
  rw [isNaN_eq_false_iff]
  intro hy
  rw [lt_iff_compare, hy, compare_swap] at h
  cases h

/-- **A number that is not less than another one is at least as great.** -/
theorem le_of_not_lt {x y : Float} (hx : x.isNaN = false) (hy : y.isNaN = false) (h : ¬ x < y) : y ≤ x := by
  obtain ⟨o, ho⟩ := exists_compare (isNaN_eq_false_iff.1 hx) (isNaN_eq_false_iff.1 hy)
  rw [lt_iff_compare, ho] at h
  rw [le_iff_compare, compare_swap, ho]
  refine ⟨o.swap, rfl, ?_⟩
  cases o with
  | lt => exact absurd rfl h
  | eq => rfl
  | gt => rfl

/-! ## Magnitudes and products -/

theorem isNaN_abs {x : Float} (hx : x.isNaN = false) : x.abs.isNaN = false := by
  rw [isNaN_eq_false_iff] at hx
  refine isNaN_pack (u := x.toModel.unpack.abs) fun h => hx ?_
  cases hu : x.toModel.unpack with
  | notANumber => rfl
  | infinity s => rw [hu] at h; cases h
  | zero s => rw [hu] at h; cases h
  | finite s m e hm => rw [hu] at h; cases h

/-- **A finite number other than zero times a number is a number,** infinite ones included. -/
theorem isNaN_mul_of_ne_zero {x y : Float} (hx : isFiniteDouble x = true) (hne : ¬ IsZero x) (hy : y.isNaN = false) :
    (x * y).isNaN = false := by
  refine isNaN_pack (u := UnpackedFloat.mul binary64 x.toModel.unpack y.toModel.unpack) fun h => ?_
  rcases unpack_of_finite hx with ⟨s, hx⟩ | ⟨s, m, e, hm, hx⟩
  · exact hne (isZero_of_unpack hx)
  · rw [hx] at h
    cases hu : y.toModel.unpack with
    | notANumber => exact isNaN_eq_false_iff.1 hy hu
    | infinity t => rw [hu] at h; cases h
    | zero t => rw [hu] at h; cases h
    | finite t n f hn =>
      rw [hu] at h
      exact roundWithAccuracy_ne _ _ _ h

end MomentProgram.Double
