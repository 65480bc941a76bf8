/-
How a number is written in a message.

Numbers are written with the fewest digits that read back; a real double keeps a `.0`, the parts of a complex number do not. A
complex number is its two parts in parentheses, or the imaginary part alone when the real part is a positive zero. A sized number
carries the name of its sort, or stands without it. Whole numbers of more than `digitLimit` digits are not written at all.
-/
import MomentProgram.Number.Notation
import MomentProgram.Value.Real

namespace MomentProgram

namespace Style

/-- sized real numbers and parts of sized complex numbers: the fewest digits of their format, with a point from 10^-4 on and below
10^16, 10^6 or 10^3 -/
def sized : Width → Style
  | .double => coefficient
  | .single => ⟨.single, none, 6, true⟩
  | .half => ⟨.half, none, 3, true⟩

end Style

/-- a real number in a style, `.0` after a whole one without an exponent -/
def printReal (s : Style) (x : Float) : String :=
  let t := s.render x
  if t.toList.all fun c => c.isDigit || c == '-' then t ++ ".0" else t

/-- the two parts of a complex number with a sign between them -/
def printParts (s : Style) (re im : Float) : String :=
  let t := s.render im
  s.render re ++ (if t.startsWith "-" then t else "+" ++ t) ++ "j"

/-- a complex number without parentheses, and whether it takes them -/
def printComplex (s : Style) (re im : Float) : String × Bool :=
  if re.toBits = 0 then (s.render im ++ "j", false) else (printParts s re im, true)

def printEnclosed (s : Style) (re im : Float) : String :=
  let p := printComplex s re im
  if p.2 then "(" ++ p.1 ++ ")" else p.1

/-- a whole number, if it has not too many digits -/
def printWhole (n : Int) : Outcome String :=
  if Nat.pow 10 Numeral.digitLimit ≤ n.natAbs then .error .tooLong else .ok (toString n)

namespace Number

/-- an unsized number as written among other values -/
def printed : Number → Outcome String
  | .bool b => .ok (if b then "True" else "False")
  | .int n => printWhole n
  | .float x => .ok (printReal .coefficient x)
  | .complex re im => .ok (printEnclosed .coefficient re im)
  | .ratio num den => do return "Fraction(" ++ (← printWhole num) ++ ", " ++ (← printWhole den) ++ ")"
  | .decimal x => .ok ("Decimal('" ++ x.text ++ "')")

/-- an unsized number as written in a sentence -/
def spelled : Number → Outcome String
  | .ratio num den => if den = 1 then printWhole num else do return (← printWhole num) ++ "/" ++ (← printWhole den)
  | .decimal x => .ok x.text
  | n => n.printed

end Number

namespace Cell

def name : Cell → String
  | .bool => "bool"
  | .int bits isSigned => (if isSigned then "int" else "uint") ++ toString bits
  | .float .half => "float16"
  | .float .single => "float32"
  | .float .double => "float64"
  | .complex .double => "complex128"
  | .complex _ => "complex64"

def bare (c : Cell) (n : Number) : Outcome String :=
  match c, n with
  | .float w, .float x => .ok (printReal (.sized w) x)
  | .complex w, .complex re im => .ok (printEnclosed (.sized w) re im)
  | _, n => n.printed

def printed (c : Cell) (n : Number) : Outcome String :=
  match c, n with
  | .bool, n => n.printed.map fun t => "np." ++ t ++ "_"
  | .complex w, .complex re im => .ok ("np." ++ c.name ++ "(" ++ (printComplex (.sized w) re im).1 ++ ")")
  | c, n => (c.bare n).map fun t => "np." ++ c.name ++ "(" ++ t ++ ")"

end Cell

end MomentProgram
