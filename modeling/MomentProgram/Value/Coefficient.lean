/-
Reading a coefficient of the objective as a real number.

`realValue` takes the direct conversion to a double where the value has one. A value that refuses it by kind, and a complex
number, go through their complex parts instead: the imaginary part must be at most 10^-12 relative to the real part, and the
real part is the answer. A refusal for another reason than the kind of the value is final on either route.
-/
import MomentProgram.Value.Printed

namespace MomentProgram

/-- the largest imaginary part that counts as none, per unit of the real part -/
def imaginaryTolerance : Float := 1e-12

/-- the greater of one and a magnitude; one if the magnitude is no number -/
def atLeastOne (x : Float) : Float := if 1.0 < x then x else 1.0

/-- the imaginary part is too large beside the real part; no number at all is not too large -/
def notNearlyReal (re im : Float) : Bool := decide (imaginaryTolerance * atLeastOne re.abs < im.abs)

/-- the direct conversion to a double, not taken by complex numbers -/
def directValue (v : Value) : Outcome Float := if v.isComplex then .error .notNumeric else v.toFloat

/-- the refusal of a value that is shown in its wording; a value that cannot be written is refused for that -/
def refuseShown (wording : String → Fault) (v : Value) : Outcome Float := v.printed.bind fun p => .error (wording p)

/-- the real part of a value whose imaginary part is negligible -/
def complexValue (v : Value) : Outcome Float :=
  match v.toComplex with
  | .error e => if e.kind = .type then refuseShown .coefficientNotNumeric v else .error e
  | .ok (re, im) => if notNearlyReal re im then refuseShown .coefficientNotReal v else .ok re

/-- a coefficient as a real number -/
def realValue (v : Value) : Outcome Float :=
  match directValue v with
  | .ok x => .ok x
  | .error e => if e.kind = .type then complexValue v else .error e

def doubledValue (v : Value) : Outcome Float := (realValue v).map (2.0 * ·)

end MomentProgram
