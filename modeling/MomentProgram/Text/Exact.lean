/-
Reading exact numbers from text.

A quotient is a sign and digits, then a slash and digits, or else places after a point and an exponent; it is brought to lowest
terms. A decimal is a real numeral whose digits are kept as they are, or `nan` or `snan` with an optional payload; underscores
in a decimal say nothing, wherever they stand.
-/
import MomentProgram.Number.ExactDecimal

namespace MomentProgram

/-- digits in front with single underscores between them, as value, count and rest -/
def Numeral.joinedDigits (ms : List Numeral.Mark) : Nat × Nat × List Numeral.Mark :=
  let inDigits (m : Numeral.Mark) : Bool := match m with
    | .inl _ => true
    | .inr c => c == '_'
  match Numeral.joined? false (ms.takeWhile inDigits) with
  | some ds => ((Numeral.leadingDigits 0 0 ds).1, (Numeral.leadingDigits 0 0 ds).2.1, ms.dropWhile inDigits)
  | none => (0, 0, ms)

namespace Quotient

open Numeral

/-- a quotient in lowest terms -/
def lowest (num : Int) (den : Nat) : Int × Nat :=
  let g := num.natAbs.gcd den
  (num / g, den / g)

/-- places after a point, as value and count; too many digits are none -/
def places? : List Mark → Option (Nat × Nat × List Mark)
  | .inr '.' :: rest => match joinedDigits rest with
    | (value, count, after) => if digitLimit < count then none else some (value, count, after)
  | rest => some (0, 0, rest)

def read (cs : List Char) : Outcome (Int × Nat) :=
  let ms := marks .exact (Script.exact.trim cs)
  let (negative, ms) := leadingSign ms
  let (whole, count, rest) := joinedDigits ms
  let withSign (n : Nat) : Int := if negative then -(n : Int) else n
  if digitLimit < count then .error .unreadable
  else match rest with
  | .inr '/' :: rest => match joinedDigits rest with
    | (den, n, []) =>
      if count = 0 ∨ n = 0 ∨ digitLimit < n then .error .unreadable
      else if den = 0 then .error .zeroDenominator
      else .ok (lowest (withSign whole) den)
    | _ => .error .unreadable
  | rest => match places? rest with
    | some (value, n, rest) =>
      if count + n = 0 then .error .unreadable
      else match (joined? false rest).map leadingExponent with
      | some (e, []) =>
        let e := e - (n : Int)
        .ok (lowest (withSign ((whole * Nat.pow 10 n + value) * Nat.pow 10 e.toNat)) (Nat.pow 10 (-e).toNat))
      | _ => .error .unreadable
    | none => .error .unreadable

end Quotient

namespace ExactDecimal

open Numeral

/-- exponents of decimals beyond this are not read -/
def readBound : Int := 999999999999999999

/-- an undefined decimal after its word: digits up to the end, or nothing -/
def payload? (negative signalling : Bool) (rest : List Mark) : Option ExactDecimal :=
  match leadingDigits 0 0 rest with
  | (value, _, []) => some (.undefined negative signalling value)
  | _ => none

def read (cs : List Char) : Outcome ExactDecimal :=
  let ms := marks .exact ((Script.exact.trim cs).filter (· != '_'))
  let (negative, body) := leadingSign ms
  let undefined? := match afterWord? ['n', 'a', 'n'] body, afterWord? ['s', 'n', 'a', 'n'] body with
    | some rest, _ => payload? negative false rest
    | _, some rest => payload? negative true rest
    | none, none => none
  match undefined?, leadingReal? ms with
  | some x, _ => .ok x
  | none, some (.infinite n, []) => .ok (.infinite n)
  | none, some (.finite n digits e, []) =>
    let lead := e + (Decimal.digitCount digits : Int) - 1
    if readBound < lead ∨ lead < -2 * readBound then .error .invalidDecimal else .ok (.finite n digits e)
  | _, _ => .error .invalidDecimal

end ExactDecimal

end MomentProgram
