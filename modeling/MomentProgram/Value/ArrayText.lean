/-
How a typed array is written in a message.

All numbers of an array share one layout, so that they stand in columns. Real numbers take the fewest digits of their format, at
most eight after the point; they take an exponent if the largest is large, the smallest small or their quotient above 1000
(`RealLayout.ofEntries`). A part of a complex number has a layout of its own. Rows stand in brackets, one below the other, and are
broken at a width; of more than `fullSize` numbers only the first and last three along each axis are written.
-/
import MomentProgram.Array.Tensor
import MomentProgram.Value.NumberText

namespace MomentProgram

/-- blanks in front, up to a width -/
def padLeft (width : Int) (s : String) : String := String.ofList (List.replicate (width - s.length).toNat ' ') ++ s

/-- a character behind, up to a width -/
def padRight (c : Char) (width : Nat) (s : String) : String := s ++ String.ofList (List.replicate (width - s.length) c)

/-! ## Real numbers in a layout -/

/-- the pieces of a written real number: what stands before and behind the point, and the exponent with its sign -/
structure Pieces where
  front : String
  fraction : String
  negativeExponent : Bool
  exponent : String

namespace Pieces

/-- digits after the point at most -/
def places : Nat := 8

/-- the first digits of a text and the others without the zeros at their end -/
def split (count : Nat) (ds : List Char) : String × String :=
  (String.ofList (ds.take count), String.ofList (((ds.drop count).reverse.dropWhile (· == '0')).reverse))

/-- `m` units with a point -/
def positional (f : Format) (m : Nat) : Pieces :=
  let d := if m = 0 then ⟨0, 0⟩ else Decimal.shortest f m
  let d := if d.exponent < -(places : Int) then Decimal.nearest m (-(places : Int)) else d
  let below := (-d.exponent).toNat
  let ds := Decimal.digitsOf (d.digits * Nat.pow 10 d.exponent.toNat)
  let padded := Decimal.zeros (below + 1 - ds.length) ++ ds
  let p := split (padded.length - below) padded
  ⟨p.1, p.2, false, ""⟩

/-- `m` units with one digit before the point and an exponent -/
def scientific (f : Format) (m : Nat) : Pieces :=
  let d := if m = 0 then ⟨0, 0⟩ else Decimal.shortest f m
  let d := if places + 1 < Decimal.digitCount d.digits then Decimal.significant (places + 1) m else d
  let ds := Decimal.digitsOf d.digits
  let e := if m = 0 then 0 else d.exponent + (ds.length : Int) - 1
  let p := split 1 ds
  let es := Decimal.digitsOf e.natAbs
  ⟨p.1, p.2, decide (e < 0), String.ofList (Decimal.zeros (2 - es.length) ++ es)⟩

end Pieces

/-- the layout that real numbers of an array share -/
structure RealLayout where
  format : Format
  /-- whether a plus is written -/
  signs : Bool
  withExponent : Bool
  /-- the width before the point -/
  front : Int
  /-- the width behind the point, exponent included -/
  behind : Int
  /-- digits behind the point, where there is an exponent -/
  fraction : Nat
  /-- digits of the exponent -/
  exponent : Nat

namespace RealLayout

/-- the leading exponent from which on the largest number asks for exponents -/
def exponentFrom : Width → Nat
  | .half => 3
  | .single => 6
  | .double => 8

/-- the smallest number below this asks for exponents -/
def smallest : Float := 0.0001

/-- a quotient of the largest and smallest number above this asks for exponents -/
def widest : Float := 1000.0

/-- whether numbers with these magnitudes, none of them zero, are written with exponents -/
def wantsExponent (w : Width) (xs : List Float) : Bool :=
  match xs with
  | [] => false
  | x :: rest =>
    let largest := rest.foldl (fun a b => if a < b then b else a) x
    let least := rest.foldl (fun a b => if b < a then b else a) x
    decide ((Nat.pow 10 (exponentFrom w)).toFloat ≤ largest) || decide (least < w.format.narrow smallest) ||
      decide (widest < w.format.narrow (largest / least))

/-- a double in pieces, its sign in front -/
def pieces (f : Format) (signs withExponent : Bool) (x : Float) : Pieces :=
  match Reading.ofFloat x with
  | .finite n m =>
    let p := if withExponent then Pieces.scientific f m else Pieces.positional f m
    { p with front := (if n then "-" else if signs then "+" else "") ++ p.front }
  | _ => ⟨"", "", false, ""⟩

def longest (ss : List String) : Nat := ss.foldl (fun a s => max a s.length) 0

def ofEntries (w : Width) (signs : Bool) (xs : List Float) : RealLayout :=
  let finite := xs.filter isFiniteDouble
  let withExponent := wantsExponent w ((finite.filter (· != 0.0)).map Float.abs)
  let ps := finite.map (pieces w.format signs withExponent)
  let fraction := longest (ps.map (·.fraction))
  let exponent := longest (ps.map (·.exponent))
  let front : Int := longest (ps.map (·.front))
  let behind : Int := if withExponent then exponent + 2 + fraction else fraction
  let sign : Int := if signs || xs.any (fun x => x == -1.0 / 0.0) then 1 else 0
  let front := if finite.length = xs.length then front else max front (max (3 - (behind + 1)) (3 + sign - (behind + 1)))
  ⟨w.format, signs, withExponent, front, behind, fraction, exponent⟩

def write (l : RealLayout) (x : Float) : String :=
  let sign := if l.signs then "+" else ""
  match Reading.ofFloat x with
  | .nan => padLeft (l.front + l.behind + 1) (sign ++ "nan")
  | .infinite n => padLeft (l.front + l.behind + 1) ((if n then "-" else sign) ++ "inf")
  | .finite _ _ =>
    let p := pieces l.format l.signs l.withExponent x
    if l.withExponent then
      padLeft l.front p.front ++ "." ++ padRight '0' l.fraction p.fraction ++ (if p.negativeExponent then "e-" else "e+") ++
        String.ofList (Decimal.zeros (l.exponent - p.exponent.length)) ++ p.exponent
    else padLeft l.front p.front ++ "." ++ padRight ' ' l.behind.toNat p.fraction

end RealLayout

/-! ## Cells in columns -/

/-- the unit put behind a number, before the blanks that follow it -/
def withUnit (s : String) : String :=
  let cs := s.toList.reverse
  String.ofList ((cs.dropWhile (· == ' ')).reverse ++ ['j'] ++ cs.takeWhile (· == ' '))

/-- how the numbers of an array are written, where the layout is that of the given entries -/
def cellWriter (c : Cell) (single : Bool) (entries : List Number) : Number → String :=
  let real (n : Number) : Float := match n with
    | .float x => x
    | .complex re _ => re
    | _ => 0.0
  let imaginary (n : Number) : Float := match n with
    | .complex _ im => im
    | _ => 0.0
  let whole (n : Number) : String := match n with
    | .int k => toString k
    | _ => ""
  match c with
  | .bool => fun n => match n with
    | .bool true => if single then "True" else " True"
    | _ => "False"
  | .int _ _ =>
    let width := RealLayout.longest (entries.map whole)
    fun n => padLeft width (whole n)
  | .float w =>
    let l := RealLayout.ofEntries w false (entries.map real)
    fun n => l.write (real n)
  | .complex w =>
    let l := RealLayout.ofEntries w false (entries.map real)
    let k := RealLayout.ofEntries w true (entries.map imaginary)
    fun n => l.write (real n) ++ withUnit (k.write (imaginary n))

/-! ## Rows -/

/-- more numbers than this are not all written -/
def fullSize : Nat := 1000

/-- so many are written at either end of an axis -/
def edgeItems : Nat := 3

/-- the positions along an axis that are written, `none` standing for those left out -/
def shownAlong (abridged : Bool) (n : Nat) : List (Option Nat) :=
  if abridged ∧ 2 * edgeItems < n then
    (List.range edgeItems).map some ++ none :: ((List.range edgeItems).map fun i => some (n - edgeItems + i))
  else (List.range n).map some

def shownIndices (abridged : Bool) : List Nat → List (List Nat)
  | [] => [[]]
  | n :: s => ((shownAlong abridged n).filterMap id).flatMap fun i => (shownIndices abridged s).map (i :: ·)

/-- a row under construction: the lines that are complete, and the last one -/
structure Lines where
  complete : String
  last : String

/-- a word onto the last line, or onto a new one if it does not fit and that would help -/
def Lines.add (l : Lines) (indent : String) (width : Int) (word : String) : Lines :=
  if width < l.last.length + word.length ∧ indent.length < l.last.length then
    ⟨l.complete ++ String.ofList ((l.last.toList.reverse.dropWhile (· == ' ')).reverse) ++ "\n", indent ++ word⟩
  else ⟨l.complete, l.last ++ word⟩

/-- words with separators between them, broken at a width; the indent stands in front of every line but the first -/
def Lines.ofWords (indent separator : String) (width : Int) (words : List String) : String :=
  let step (l : Lines) (word : String) : Lines :=
    let l := l.add indent width word
    ⟨l.complete, l.last ++ separator⟩
  let body := (words.dropLast.foldl step ⟨"", indent⟩).add indent width (words.getLastD "")
  String.ofList ((body.complete ++ body.last).toList.drop indent.length)

/-- the rows of an array: the word of each multi-index in brackets, nested like the axes -/
def rowText (word : List Nat → String) (abridged : Bool) (separator : String) : List Nat → List Nat → String → Int → String
  | [], ix, _, _ => word ix
  | [n], ix, indent, width =>
    let one (i : Option Nat) : String := match i with
      | some i => word (ix ++ [i])
      | none => "..."
    "[" ++ Lines.ofWords indent separator (width - 1) ((shownAlong abridged n).map one) ++ "]"
  | n :: m :: s, ix, indent, width =>
    let one (i : Option Nat) : String := match i with
      | some i => rowText word abridged separator (m :: s) (ix ++ [i]) (indent ++ " ") (width - 1)
      | none => "..."
    let comma := String.ofList ((separator.toList.reverse.dropWhile (· == ' ')).reverse)
    let between := comma ++ String.ofList (List.replicate (s.length + 1) '\n') ++ indent
    "[" ++ between.intercalate ((shownAlong abridged n).map one) ++ "]"

/-- lines are broken here -/
def lineWidth : Nat := 75

/-- an array in brackets, `before` characters standing before it on its first line and `after` behind it on its last -/
def bracketed (c : Cell) (shape : List Nat) (entries : List Number) (separator : String) (before after : Nat) : String :=
  if shapeSize shape = 0 then "[]"
  else
    let abridged := decide (fullSize < shapeSize shape)
    let entry (ix : List Nat) : Number := entries.getD (offset shape ix) (.int 0)
    let writer := cellWriter c shape.isEmpty ((shownIndices abridged shape).map entry)
    rowText (fun ix => writer (entry ix)) abridged separator shape [] (String.ofList (List.replicate (before + 1) ' '))
      ((lineWidth : Int) - after)

/-- whether the sort of an array is clear from how its numbers are written -/
def Cell.isPlain : Cell → Bool
  | .bool => true
  | .int 64 true => true
  | .float .double => true
  | .complex .double => true
  | _ => false

/-- an array with its sort and shape, where its numbers do not show them -/
def arrayText (c : Cell) (shape : List Nat) (entries : List Number) : String :=
  let start := "array("
  let size := shapeSize shape
  let extras := (if size = 0 ∧ shape ≠ [0] ∨ fullSize < size then ["shape=" ++ shapeText shape] else []) ++
    (if c.isPlain ∧ size ≠ 0 then [] else ["dtype=" ++ c.name])
  let body := start ++ bracketed c shape entries ", " start.length 1
  if extras.isEmpty then body ++ ")"
  else
    let extra := ", ".intercalate extras ++ ")"
    let lastLine := ((body ++ ",").toList.reverse.takeWhile (· != '\n')).length
    let spacer := if lineWidth < lastLine + extra.length + 1 then "\n" ++ padLeft start.length "" else " "
    body ++ "," ++ spacer ++ extra

end MomentProgram
