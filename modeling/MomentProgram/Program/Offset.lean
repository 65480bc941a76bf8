/-
Values offered as the constant offset of a program.

The offset has to be a number that can be tested for being finite as it stands: a whole number of at most 64 bits, a truth
value, or a double or narrower number; an array without axes counts as its number. A list or array of one number is tested as
well, but it is no offset even if the test succeeds.
-/
import MomentProgram.Value.Array

namespace MomentProgram

namespace Value

/-- a number that can be tested for being finite -/
def testable : Number → Bool
  | .int n => decide (-Nat.pow 2 63 ≤ n ∧ n < Nat.pow 2 64)
  | .ratio _ _ => false
  | .decimal _ => false
  | _ => true

def testFinite : Number → Bool
  | .float x => isFiniteDouble x
  | .complex re im => isFiniteDouble re && isFiniteDouble im
  | _ => true

/-- one number as an offset; an unsized complex one fails only after the test -/
def offsetOfNumber (n : Number) (cell : Option Cell) : Outcome Float :=
  if testable n then (if testFinite n then numberToFloat n cell else .error .dataNotFinite) else .error .notNumeric

/-- the number that a cell holds if it can be tested -/
def testableCell? : Value → Option Number
  | .number n _ => if testable n then some n else none
  | _ => none

/-- one number that is no offset: refused for being infinite or NaN, or else for being in an array -/
def offsetInArray (n : Number) : Outcome Float := if testFinite n then .error .notNumeric else .error .dataNotFinite

/-- a list as an offset: refused for what it holds, for how much it holds, or in the end for being a list -/
def offsetOfList (cells : Outcome (Tensor Value)) : Outcome Float :=
  match cells with
  | .error e => .error e
  | .ok t => match t.toList.mapM testableCell? with
    | none => .error .notNumeric
    | some [n] => offsetInArray n
    | some _ => .error .notSingle

def toOffset : Value → Outcome Float
  | .number n c => offsetOfNumber n c
  | .array _ [] [n] => offsetOfNumber n none
  | .array _ _ [n] => offsetInArray n
  | .array _ _ _ => .error .notSingle
  | .list vs => offsetOfList (Value.list vs).cells
  | .tuple vs => offsetOfList (Value.tuple vs).cells
  | _ => .error .notNumeric

end Value

end MomentProgram
