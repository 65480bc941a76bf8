/-
Exact decimal numbers.

An `ExactDecimal` keeps its digits and its exponent as given, so `1.0` and `1.00` differ in text and agree in value; it may also be
infinite, or undefined with a payload, and an undefined one may be of the signalling sort that refuses comparison. Reading and
comparing are exact. Sums and products are rounded to `contextDigits` significant digits, a half going to the even neighbour, and
refused beyond the largest exponent; a whole quotient that needs more digits is refused as well.
-/
import MomentProgram.Fault
import MomentProgram.Number.Notation
import MomentProgram.Text.Numeral

namespace MomentProgram

/-- an exact decimal: `digits * 10 ^ exponent` with a sign, an infinity, or no number at all -/
inductive ExactDecimal where
  | finite (negative : Bool) (digits : Nat) (exponent : Int)
  | infinite (negative : Bool)
  | undefined (negative signalling : Bool) (payload : Nat)
  deriving DecidableEq, Repr, Inhabited

namespace ExactDecimal

/-- what it says as a real numeral -/
def numeral : ExactDecimal → Numeral
  | .finite n digits e => .finite n digits e
  | .infinite n => .infinite n
  | .undefined _ _ _ => .nan

/-- whether it refuses comparison -/
def signals : ExactDecimal → Bool
  | .undefined _ s _ => s
  | _ => false

/-- as written: with a point unless the exponent is positive or more than five zeros would follow the point -/
def text : ExactDecimal → String
  | .undefined n s payload =>
    signed n ((if s then "sNaN" else "NaN") ++ (if payload = 0 then "" else toString payload))
  | .infinite n => signed n "Infinity"
  | .finite n digits e =>
    let d : Decimal := ⟨digits, e⟩
    let lead := e + (Decimal.digitCount digits : Int) - 1
    if e ≤ 0 ∧ -6 ≤ lead then signed n d.positional
    else
      let ds := Decimal.digitsOf digits
      let point := if ds.length = 1 then "" else "." ++ String.ofList (ds.drop 1)
      signed n (String.ofList (ds.take 1) ++ point ++ (if lead < 0 then "E" else "E+") ++ toString lead)

/-- the value without its fraction; `none` if it is no finite number or beyond any word -/
def truncate? : ExactDecimal → Option Int
  | .finite n digits e =>
    if digits = 0 then some 0
    else if Numeral.decadeBound < e then none
    else
      let m := if e < -(Decimal.digitCount digits : Int) then 0 else digits * Nat.pow 10 e.toNat / Nat.pow 10 (-e).toNat
      some (if n then -(m : Int) else m)
  | _ => none

/-! ## Equality -/

/-- the same value with as few digits as possible; zero has one form of each sign -/
def reduced (digits : Nat) (e : Int) : Nat × Int :=
  if digits = 0 then (0, 0)
  else
    let d := Decimal.strip (Decimal.digitCount digits) ⟨digits, e⟩
    (d.digits, d.exponent)

def same : ExactDecimal → ExactDecimal → Bool
  | .finite m a e, .finite n b f => reduced a e == reduced b f && (m == n || a == 0)
  | .infinite m, .infinite n => m == n
  | _, _ => false

/-! ## Arithmetic -/

/-- significant digits of results -/
def contextDigits : Nat := 28

/-- the largest leading exponent of results -/
def contextExponent : Int := 999999

def rounded (n : Bool) (digits : Nat) (e : Int) : Outcome ExactDecimal :=
  let extra := Decimal.digitCount digits - contextDigits
  let q := Format.nearestQuotient digits (Nat.pow 10 extra)
  let (q, e) := if q = Nat.pow 10 contextDigits then (q / 10, e + extra + 1) else (q, e + extra)
  if q ≠ 0 ∧ contextExponent < e + (Decimal.digitCount q : Int) - 1 then .error .decimalOverflow else .ok (.finite n q e)

/-- exponents beyond this are not expanded -/
def expanded : Int := 5000

def succ : ExactDecimal → Outcome ExactDecimal
  | .finite n digits e =>
    if expanded < e ∧ digits ≠ 0 then rounded n (digits * Nat.pow 10 contextDigits) (e - contextDigits)
    else if e < -expanded then .ok (.finite false (Nat.pow 10 (contextDigits - 1)) (1 - (contextDigits : Int)))
    else
      let low := min e 0
      let a : Int := digits * Nat.pow 10 (e - low).toNat
      let sum : Int := (if n then -a else a) + Nat.pow 10 (-low).toNat
      rounded (decide (sum < 0)) sum.natAbs low
  | .infinite n => .ok (.infinite n)
  | .undefined n s p => if s then .error .invalidDecimal else .ok (.undefined n false p)

def mul : ExactDecimal → ExactDecimal → Outcome ExactDecimal
  | .finite m a e, .finite n b f => rounded (m != n) (a * b) (e + f)
  | .undefined n false p, _ => .ok (.undefined n false p)
  | _, .undefined n false p => .ok (.undefined n false p)
  | .infinite m, .infinite n => .ok (.infinite (m != n))
  | .infinite m, .finite n b _ => if b = 0 then .error .invalidDecimal else .ok (.infinite (m != n))
  | .finite m a _, .infinite n => if a = 0 then .error .invalidDecimal else .ok (.infinite (m != n))
  | _, _ => .error .invalidDecimal

/-- half of it without the fraction -/
def halved : ExactDecimal → Outcome ExactDecimal
  | .finite n digits e =>
    if digits ≠ 0 ∧ (contextDigits : Int) < e then .error .invalidDecimal
    else if e < -(Decimal.digitCount digits : Int) then .ok (.finite n 0 0)
    else
      let q := digits * Nat.pow 10 e.toNat / (2 * Nat.pow 10 (-e).toNat)
      if contextDigits < Decimal.digitCount q then .error .invalidDecimal else .ok (.finite n q 0)
  | .infinite n => .ok (.infinite n)
  | .undefined n s p => if s then .error .invalidDecimal else .ok (.undefined n false p)

end ExactDecimal

end MomentProgram
