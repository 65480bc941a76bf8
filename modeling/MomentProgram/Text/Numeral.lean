/-
Reading numbers from text.

A real numeral is a sign, digits with at most one point, and an exponent; or `nan`, `inf`, `infinity` in any case. A whole
numeral is a sign and digits, of which there may not be too many. A complex numeral is a real one, a real one with a `j` behind it,
or both one after the other, in parentheses or not; the digits before `j` may be left out after a sign. Single underscores may stand
between digits, blanks around the whole. `Numeral` is what was read, exactly; `Numeral.reading` is the double nearest to it,
infinity beyond the range.
-/
import MomentProgram.Number.Magnitude
import MomentProgram.Text.Script

namespace MomentProgram

/-- what a real numeral says: `digits * 10 ^ exponent`, an infinity, or no number -/
inductive Numeral where
  | finite (negative : Bool) (digits : Nat) (exponent : Int)
  | infinite (negative : Bool)
  | nan
  deriving DecidableEq, Repr

namespace Numeral

/-- a digit, or a character that is none -/
abbrev Mark := Nat ⊕ Char

def marks (s : Script) (cs : List Char) : List Mark :=
  cs.map fun c => match s.digit? c with
    | some n => .inl n
    | none => .inr c

/-- the marks without underscores, if each stands between two digits; `before` says whether a digit precedes -/
def joined? : Bool → List Mark → Option (List Mark)
  | _, [] => some []
  | before, .inr '_' :: .inl n :: rest => if before then (joined? true rest).map (.inl n :: ·) else none
  | _, .inr '_' :: _ => none
  | _, .inr c :: rest => (joined? false rest).map (.inr c :: ·)
  | _, .inl n :: rest => (joined? true rest).map (.inl n :: ·)

/-- the digits in front, as their value and count, and the rest -/
def leadingDigits : Nat → Nat → List Mark → Nat × Nat × List Mark
  | value, count, .inl n :: rest => leadingDigits (10 * value + n) (count + 1) rest
  | value, count, rest => (value, count, rest)

/-- a sign in front; none is plus -/
def leadingSign : List Mark → Bool × List Mark
  | .inr '-' :: rest => (true, rest)
  | .inr '+' :: rest => (false, rest)
  | rest => (false, rest)

/-- the rest after a word in any case -/
def afterWord? : List Char → List Mark → Option (List Mark)
  | [], rest => some rest
  | w :: ws, .inr c :: rest => if c.toLower = w then afterWord? ws rest else none
  | _ :: _, _ => none

/-- the exponent in front, if there is one, and the rest -/
def leadingExponent (ms : List Mark) : Int × List Mark :=
  match ms with
  | .inr c :: rest =>
    if c = 'e' ∨ c = 'E' then
      let (negative, rest) := leadingSign rest
      match leadingDigits 0 0 rest with
      | (_, 0, _) => (0, ms)
      | (value, _, rest) => (if negative then -(value : Int) else value, rest)
    else (0, ms)
  | _ => (0, ms)

/-- the longest real numeral in front, and the rest -/
def leadingReal? (ms : List Mark) : Option (Numeral × List Mark) :=
  let (negative, ms) := leadingSign ms
  match afterWord? ['i', 'n', 'f', 'i', 'n', 'i', 't', 'y'] ms, afterWord? ['i', 'n', 'f'] ms, afterWord? ['n', 'a', 'n'] ms with
  | some rest, _, _ => some (.infinite negative, rest)
  | _, some rest, _ => some (.infinite negative, rest)
  | _, _, some rest => some (.nan, rest)
  | none, none, none =>
    let (whole, count, rest) := leadingDigits 0 0 ms
    let (value, places, total, rest) := match rest with
      | .inr '.' :: more =>
        let (value, all, after) := leadingDigits whole count more
        (value, all - count, all, after)
      | rest => (whole, 0, count, rest)
    if total = 0 then none
    else
      let (e, rest) := leadingExponent rest
      some (.finite negative value (e - (places : Int)), rest)

/-- a real numeral in a script, blanks around it allowed -/
def read? (s : Script) (cs : List Char) : Option Numeral := do
  let ms ← joined? false (marks s (s.trim cs))
  match leadingReal? ms with
  | some (x, []) => some x
  | _ => none

/-- whole numbers of more decimal digits than this are neither read nor written -/
def digitLimit : Nat := 4300

/-- digits up to the end, not too many of them, with a sign in front -/
def whole? (ms : List Mark) : Option Int :=
  let (negative, ms) := leadingSign ms
  match leadingDigits 0 0 ms with
  | (value, count, []) =>
    if count = 0 ∨ digitLimit < count then none else some (if negative then -(value : Int) else value)
  | _ => none

/-- a whole numeral in a script, blanks around it allowed -/
def readInt? (s : Script) (cs : List Char) : Option Int := (joined? false (marks s (s.trim cs))).bind whole?

/-! ## Complex numerals -/

/-- one or minus one for a sign in front, one for none, and the rest -/
def leadingUnit (ms : List Mark) : Numeral × List Mark :=
  let (negative, rest) := leadingSign ms
  (.finite negative 1 0, rest)

/-- the rest after the letter of the imaginary unit -/
def afterUnit? : List Mark → Option (List Mark)
  | .inr 'j' :: rest => some rest
  | .inr 'J' :: rest => some rest
  | _ => none

def startsSigned : List Mark → Bool
  | .inr '+' :: _ => true
  | .inr '-' :: _ => true
  | _ => false

/-- the real and imaginary part in front, and the rest -/
def leadingComplex? (ms : List Mark) : Option (Numeral × Numeral × List Mark) :=
  let zero : Numeral := .finite false 0 0
  match leadingReal? ms with
  | none => (afterUnit? (leadingUnit ms).2).map fun rest => (zero, (leadingUnit ms).1, rest)
  | some (x, rest) =>
    if startsSigned rest then
      let (y, after) := (leadingReal? rest).getD (leadingUnit rest)
      (afterUnit? after).map fun rest => (x, y, rest)
    else match afterUnit? rest with
      | some rest => some (zero, x, rest)
      | none => some (x, zero, rest)

def skipBlanks (s : Script) (ms : List Mark) : List Mark :=
  ms.dropWhile fun m => match m with
    | .inl _ => false
    | .inr c => s.blank c

/-- both parts of a complex numeral in a script -/
def readComplex? (s : Script) (cs : List Char) : Option (Numeral × Numeral) := do
  let ms ← joined? false (marks s (s.trim cs))
  match ms with
  | .inr '(' :: rest => do
    let (x, y, rest) ← leadingComplex? (skipBlanks s rest)
    match skipBlanks s rest with
    | [.inr ')'] => some (x, y)
    | _ => none
  | ms => do
    let (x, y, rest) ← leadingComplex? ms
    if rest.isEmpty then some (x, y) else none

/-- powers of ten from here on are beyond every double, and below its negative beneath every double -/
def decadeBound : Int := 400

/-- the number of a format nearest to a numeral; the exponent is clamped before a power is formed -/
def reading (f : Format) : Numeral → Reading
  | .nan => .nan
  | .infinite n => .infinite n
  | .finite n digits e =>
    let decade := e + ((Nat.toDigits 10 digits).length : Int)
    if digits = 0 ∨ decade < -decadeBound then .finite n 0
    else if decadeBound < decade then .infinite n
    else .ofRatio f n (digits * Nat.pow 10 e.toNat) (Nat.pow 10 (-e).toNat)

def toFloat (x : Numeral) : Float := (x.reading .double).toFloat

end Numeral

/-- the double that a text names -/
def readDouble? (s : Script) (cs : List Char) : Option Float := (Numeral.read? s cs).map Numeral.toFloat

end MomentProgram
