/-
Numbers compared by their exact values.

`Exact` is a real number as a quotient, or an infinity; `Number.toExact` is the value of a number, `none` for NaN and for complex
numbers. Two numbers are the same if their parts are, whatever they were given as; a decimal of the signalling sort refuses the
question. Order is asked of real numbers only (`Number.order?`).
-/
import MomentProgram.Value.Real

namespace MomentProgram

/-- a real number as an exact quotient, or an infinity -/
inductive Exact where
  | quotient (num : Int) (den : Nat)
  | infinite (negative : Bool)
  deriving DecidableEq, Repr

namespace Exact

def order : Exact → Exact → Ordering
  | .quotient a b, .quotient c d => compare (a * d) (c * b)
  | .infinite m, .infinite n => if m = n then .eq else if m then .lt else .gt
  | .infinite m, .quotient _ _ => if m then .lt else .gt
  | .quotient _ _, .infinite n => if n then .gt else .lt

def same (a b : Exact) : Bool := a.order b == .eq

def zero : Exact := .quotient 0 1

def ofFloat? (x : Float) : Option Exact :=
  match Reading.ofFloat x with
  | .finite neg m => some (.quotient (if neg then -(m : Int) else m) unitsPerOne)
  | .infinite neg => some (.infinite neg)
  | .nan => none

/-- exponents beyond this are not expanded -/
def decimalReach : Int := 5000

/-- the exact value of a decimal; beyond reach, a number as large or small and of the same sign -/
def ofNumeral? : Numeral → Option Exact
  | .nan => none
  | .infinite neg => some (.infinite neg)
  | .finite neg digits e =>
    let e := max (-decimalReach) (min decimalReach e)
    let m : Int := digits * Nat.pow 10 e.toNat
    some (.quotient (if neg then -m else m) (Nat.pow 10 (-e).toNat))

end Exact

namespace Number

/-- the exact value of a real number, `none` for NaN and for complex numbers -/
def toExact : Number → Option Exact
  | .bool b => some (.quotient (if b then 1 else 0) 1)
  | .int n => some (.quotient n 1)
  | .float x => Exact.ofFloat? x
  | .complex _ _ => none
  | .ratio num den => some (.quotient num den)
  | .decimal x => Exact.ofNumeral? x.numeral

/-- the exact real and imaginary parts of a number, unless one is NaN -/
def parts? : Number → Option (Exact × Exact)
  | .complex re im => match Exact.ofFloat? re, Exact.ofFloat? im with
    | some a, some b => some (a, b)
    | _, _ => none
  | n => n.toExact.map fun a => (a, .zero)

/-- whether a number refuses comparison -/
def signals : Number → Bool
  | .decimal x => x.signals
  | _ => false

def isReal : Number → Bool
  | .complex _ im => im == 0.0
  | _ => true

def same (m n : Number) : Bool :=
  match m, n with
  | .decimal x, .decimal y => x.same y
  | m, n => match m.parts?, n.parts? with
    | some (a, b), some (c, d) => a.same c && b.same d
    | _, _ => false

def equal (m n : Number) : Outcome Bool :=
  if (m.signals || n.signals) && m.isReal && n.isReal then .error .invalidDecimal else .ok (m.same n)

/-- which of two real numbers is the greater; no answer for NaN -/
def order? (m n : Number) : Option Ordering :=
  match m.toExact, n.toExact with
  | some a, some b => some (a.order b)
  | _, _ => none

/-- whether a decimal is no number at all -/
def isUndefined : Number → Bool
  | .decimal (.undefined _ _ _) => true
  | _ => false

end Number

end MomentProgram
