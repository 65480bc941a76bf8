/-
The numbers that matrices hold.

All matrix computations of this library are written once, over any number type with the operations they use, in one fixed
order of evaluation. Run on doubles they give the bits of the answer; read in an exact type they give its meaning. `Scalar`
holds what is needed beyond addition, subtraction, multiplication and negation. A test of equality need not be reflexive, since
NaN differs from itself; `ReflConstants` says that it is at zero and at one.
-/
import MomentProgram.Number.Magnitude

namespace MomentProgram

/-- constants of a number type, and how it treats signed zeros and infinities -/
class Scalar (α : Type) where
  zero : α
  one : α
  half : α
  /-- what zero plus the number is: a negative zero loses its sign -/
  fromZero : α → α
  isFinite : α → Bool

instance : Scalar Float where
  zero := 0.0
  one := 1.0
  half := 0.5
  fromZero x := if x == 0.0 then 0.0 else x
  isFinite := isFiniteDouble

/-- zero and one equal themselves -/
class ReflConstants (α : Type) [BEq α] [Scalar α] : Prop where
  zero_beq : ((Scalar.zero : α) == Scalar.zero) = true
  one_beq : ((Scalar.one : α) == Scalar.one) = true

instance : ReflConstants Float where
  zero_beq := by decide
  one_beq := by decide

end MomentProgram
