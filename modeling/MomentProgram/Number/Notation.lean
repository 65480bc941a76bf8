/-
How chosen digits are written.

`Style` holds the decisions of a natural notation: from which power of ten on and up to which one numbers are written with a point,
and with how many significant digits at most (none: as many as read back). `positional` and `scientific` lay a decimal out; an
exponent has a sign and at least two digits, and neither form ends in zeros after the point. `fixed` writes a given count of places.
-/
import MomentProgram.Number.Digits

namespace MomentProgram

/-- how a real number is written in a message -/
structure Style where
  /-- the number format whose neighbours the digits tell apart -/
  format : Format
  /-- a fixed count of significant digits, or the fewest that read back -/
  significant : Option Nat
  /-- leading exponents below this are written with a point -/
  plainBelow : Int
  /-- whether it is the number itself, and not its digits, that must reach the least power of ten for a point -/
  exactFrom : Bool
  deriving Repr

namespace Style

/-- leading exponents from here on are written with a point -/
def plainFrom : Int := -4

/-- coefficients in double precision: the fewest digits, with a point below 10^16 -/
def coefficient : Style := ⟨.double, none, 16, false⟩

/-- tolerances: six significant digits -/
def tolerance : Style := ⟨.double, some 6, 6, false⟩

/-- objective values: twelve significant digits -/
def objective : Style := ⟨.double, some 12, 12, false⟩

end Style

def signed (negative : Bool) (s : String) : String := if negative then "-" ++ s else s

namespace Decimal

def zeros (n : Nat) : List Char := List.replicate n '0'

/-- without an exponent: the point after, inside or before the digits -/
def positional (d : Decimal) : String :=
  let ds := digitsOf d.digits
  if 0 ≤ d.exponent then String.ofList (ds ++ zeros d.exponent.toNat)
  else
    let below := (-d.exponent).toNat
    let padded := zeros (below + 1 - ds.length) ++ ds
    let cut := padded.length - below
    String.ofList (padded.take cut ++ '.' :: padded.drop cut)

/-- an exponent as written: sign and at least two digits -/
def exponentText (e : Int) : String :=
  let ds := digitsOf e.natAbs
  (if e < 0 then "e-" else "e+") ++ String.ofList (zeros (2 - ds.length) ++ ds)

/-- one digit before the point, then the exponent -/
def scientific (d : Decimal) : String :=
  let ds := digitsOf d.digits
  let rest := ds.drop 1
  let e := d.exponent + (rest.length : Int)
  let point := if rest.isEmpty then "" else "." ++ String.ofList rest
  String.ofList (ds.take 1) ++ point ++ exponentText e

/-- the digits of `m` units in the notation of a style, without needless zeros -/
def render (s : Style) (m : Nat) (d : Decimal) : String :=
  let e := d.exponent + (digitCount d.digits : Int) - 1
  let t := strip (digitCount d.digits) d
  let reached := decide (Style.plainFrom ≤ e) && (!s.exactFrom || decide (unitsPerOne ≤ m * Nat.pow 10 (-Style.plainFrom).toNat))
  if reached ∧ e < s.plainBelow then t.positional else t.scientific

end Decimal

namespace Style

def magnitude (s : Style) (m : Nat) : String :=
  if m = 0 then "0"
  else match s.significant with
    | none => (Decimal.shortest s.format m).render s m
    | some n => (Decimal.significant n m).render s m

/-- a double in the notation of a style; the sign of zero is written -/
def render (s : Style) (x : Float) : String :=
  match Reading.ofFloat x with
  | .nan => "nan"
  | .infinite n => signed n "inf"
  | .finite n m => signed n (s.magnitude m)

end Style

/-- a double with a fixed count of places after the point -/
def fixedPlaces (n : Nat) (x : Float) : String :=
  match Reading.ofFloat x with
  | .nan => "nan"
  | .infinite neg => signed neg "inf"
  | .finite neg m => signed neg (Decimal.places n m).positional

end MomentProgram
