/-
Complex coefficients.

A complex number, and an object whose only conversion is one to a complex number, refuse to be read as a real number by their kind
and are read by their two parts (`realValue_of_isComplex`). The imaginary part is refused if it is greater than 10^-12 of the real part, or of
one beside a small real part. Neither side of this comparison is a NaN unless the imaginary part is (`isNaN_bound`), so whatever else is not refused
is at most that great. The comparison with a NaN fails, and then nothing is refused: such a coefficient is taken for its real part.

- `complex_coefficient_bound`: what an accepted complex coefficient is worth and how small its imaginary part is.
- `complex_coefficient_bound_edge`: an imaginary part of exactly 10^-12.
- `complex_coefficient_nan`: an imaginary part that is a NaN and is accepted.
-/
import Mathlib
import MomentProgram.Proofs.Number.Order
import MomentProgram.Proofs.Program.Encode
import MomentProgram.Proofs.Program.Refusal

namespace MomentProgram

/-! ## The bound -/

/-- **The greatest imaginary part beside a real part is a number,** whatever the real part is. -/
theorem isNaN_bound (re : Float) : (imaginaryTolerance * atLeastOne re.abs).isNaN = false := by
  have hmagnitude : (atLeastOne re.abs).isNaN = false := by
    unfold atLeastOne
    split
    case isTrue h => exact Double.isNaN_of_lt h
    case isFalse => rfl
  have htolerance : ¬ Double.IsZero imaginaryTolerance := by
    rintro (h | h) <;> exact absurd (congrArg Float.toBits h) (by decide)
  exact Double.isNaN_mul_of_ne_zero (by decide) htolerance hmagnitude

theorem abs_le_bound {re im : Float} (him : im.isNaN = false) (h : notNearlyReal re im = false) :
    im.abs ≤ imaginaryTolerance * atLeastOne re.abs :=
  Double.le_of_not_lt (isNaN_bound re) (Double.isNaN_abs him) (of_decide_eq_false h)

/-! ## Complex values -/

/-- a value that is a complex number, or an object with no conversion but one that gives such a number -/
inductive IsComplex (re im : Float) : Value → Prop
  /-- plain or sized -/
  | number (cell : Option Cell) : IsComplex re im (.number (.complex re im) cell)
  | foreign (name : String) (conversions : Conversions) (answer : Answer) (hfloat : conversions.toFloat = none)
      (hindex : conversions.toIndex = none) (hcomplex : conversions.toComplex = some answer) (hanswer : answer.toComplex = .ok (re, im)) :
      IsComplex re im (.foreign name conversions)

theorem refuseShown_ne_ok {wording : String → Fault} {v : Value} {x : Float} : refuseShown wording v ≠ .ok x := by
  intro h
  obtain ⟨p, -, hp⟩ := Outcome.bind_ok.1 h
  cases hp

/-- **A complex value is its real part or refused.** -/
theorem realValue_of_isComplex {v : Value} {re im : Float} (h : IsComplex re im v) :
    realValue v = if notNearlyReal re im then refuseShown .coefficientNotReal v else .ok re := by
  cases h with
  | number cell => rfl
  | foreign name conversions answer hfloat hindex hcomplex hanswer =>
    have hdirect : directValue (.foreign name conversions) = .error .notNumeric := by
      show conversions.real = _
      rw [Conversions.real, hfloat, Conversions.index, hindex]
      rfl
    have hparts : (Value.foreign name conversions).toComplex = .ok (re, im) := by
      show conversions.complex = _
      rw [Conversions.complex, hcomplex]
      exact hanswer
    rw [realValue, hdirect]
    show complexValue _ = _
    rw [complexValue, hparts]

theorem eq_of_realValue {v : Value} {re im x : Float} (h : IsComplex re im v) (hx : realValue v = .ok x) :
    x = re ∧ notNearlyReal re im = false := by
  rw [realValue_of_isComplex h] at hx
  split at hx
  case isTrue => exact absurd hx refuseShown_ne_ok
  case isFalse hnear => exact ⟨(Except.ok.inj hx).symm, Bool.eq_false_of_not_eq_true hnear⟩

/-- **What an accepted complex coefficient is worth.** For every relaxation that is encoded with the default conversion and every
coefficient that is a complex number, or an object that only converts to one, the offset or bound in its place is exactly its real part.
Its imaginary part is not above 10^-12 of the greater of one and the magnitude of the real part, and it is at most that great unless it is a
NaN. -/
theorem complex_coefficient_bound (R : Relaxation Float Value) (P : Program Float) (hP : R.surface.encode realValue = .ok P)
    (k : ℕ) (hk : k < R.objective.length) (re im : Float) (hcomplex : IsComplex re im R.objective[k]) :
    (P.offset :: P.bounds)[k]? = some re ∧ ¬ (1e-12 * atLeastOne re.abs < im.abs) ∧
      (im.isNaN = false → im.abs ≤ 1e-12 * atLeastOne re.abs) := by
  have hvalues := (Relaxation.encode_ok hP).values
  have hk' : k < (P.offset :: P.bounds).length := hvalues.length_eq ▸ hk
  obtain ⟨hx, hnear⟩ := eq_of_realValue hcomplex ((List.forall₂_iff_get.1 hvalues).2 k hk hk')
  refine ⟨?_, of_decide_eq_false hnear, fun him => abs_le_bound him hnear⟩
  rw [List.getElem?_eq_getElem hk']
  exact congrArg some hx

/-- an object that only converts to a complex number as offset, and an imaginary part of exactly 10^-12 in a bound -/
theorem complex_coefficient_bound_edge :
    ∃ P, (cornerWith (.foreign "q" ⟨none, some (.number (.complex 3.0 (-1e-13)) none), none⟩)
        (.number (.complex 0.5 1e-12) none)).surface.encode realValue = .ok P ∧
      (P.offset :: P.bounds)[0]? = some 3.0 ∧ (P.offset :: P.bounds)[1]? = some 0.5 ∧
      (1e-12 : Float).abs ≤ 1e-12 * atLeastOne (0.5 : Float).abs := by
  let R := cornerWith (.foreign "q" ⟨none, some (.number (.complex 3.0 (-1e-13)) none), none⟩) (.number (.complex 0.5 1e-12) none)
  obtain ⟨P, hP⟩ := Outcome.exists_ok (x := R.surface.encode realValue) (by decide +kernel)
  obtain ⟨hoffset, -⟩ := complex_coefficient_bound R P hP 0 (by decide) 3.0 (-1e-13) (.foreign _ _ _ rfl rfl rfl rfl)
  obtain ⟨hbound, -, hle⟩ := complex_coefficient_bound R P hP 1 (by decide) 0.5 1e-12 (.number none)
  exact ⟨P, hP, hoffset, hbound, hle (by decide)⟩

/-- **An imaginary part that is a NaN is accepted:** no comparison with it holds, so it is not above the bound, and it is not below. -/
theorem complex_coefficient_nan :
    ∃ P, (cornerWith (.ofFloat 3.0) (.number (.complex 0.5 (0.0 / 0.0)) none)).surface.encode realValue = .ok P ∧
      IsComplex 0.5 (0.0 / 0.0) (.number (.complex 0.5 (0.0 / 0.0)) none) ∧ (0.0 / 0.0 : Float).isNaN = true ∧ P.bounds = [0.5] ∧
      ¬ (0.0 / 0.0 : Float).abs ≤ 1e-12 * atLeastOne (0.5 : Float).abs := by
  let R := cornerWith (.ofFloat 3.0) (.number (.complex 0.5 (0.0 / 0.0)) none)
  have hbounds : (R.surface.encode realValue).map (fun P => P.bounds.map Float.toBits) = .ok [(0.5 : Float).toBits] := by decide +kernel
  obtain ⟨P, hP, hbits⟩ := Outcome.map_ok.1 hbounds
  have hbound : P.bounds = [0.5] := Double.toBits_injective.list_map hbits
  exact ⟨P, hP, .number none, by decide, hbound, by decide⟩

end MomentProgram
