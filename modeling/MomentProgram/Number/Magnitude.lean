/-
Doubles as exact numbers, and exact numbers rounded to doubles.

Every finite double is a natural number of units 2^-1074, with a sign: its magnitude. Half and single precision numbers are
doubles too, so the three formats share the unit and differ in three numbers: the bits of a significand, the least step
between neighbours and the bound that no finite magnitude reaches. `Format.round` is the one rounding of this library: the
magnitude of the format nearest to an exact quotient, a tie going to the even significand, `none` beyond the largest.
-/
namespace MomentProgram

/-- a double as an exact number -/
inductive Reading where
  /-- `magnitude` units of 2^-1074, below zero if `negative` -/
  | finite (negative : Bool) (magnitude : Nat)
  | infinite (negative : Bool)
  | nan
  deriving DecidableEq, Repr

/-- the units in one: magnitudes count 2^-1074 -/
def unitsPerOne : Nat := Nat.pow 2 1074

/-- a binary floating-point format, measured in units of 2^-1074 -/
structure Format where
  /-- bits of a significand -/
  precision : Nat
  /-- neighbours are at least 2^least units apart -/
  least : Nat
  /-- finite magnitudes are below 2^top units -/
  top : Nat
  deriving DecidableEq, Repr

namespace Format

def half : Format := ⟨11, 1050, 1090⟩
def single : Format := ⟨24, 925, 1202⟩
def double : Format := ⟨53, 0, 2098⟩

/-- log2 of the distance from a magnitude to the next larger number of the format -/
def step (f : Format) (m : Nat) : Nat := max (m.log2 + 1 - f.precision) f.least

/-- the quotient rounded to an integer, a half going to the even neighbour -/
def nearestQuotient (num den : Nat) : Nat :=
  let q := num / den
  let r := num % den
  if 2 * r < den then q else if den < 2 * r then q + 1 else q + q % 2

/-- the magnitude of the format nearest to `num / den` units; `none` is overflow -/
def round (f : Format) (num den : Nat) : Option Nat :=
  let s := f.step (num / den)
  let m := nearestQuotient num (den * Nat.pow 2 s) * Nat.pow 2 s
  if m < Nat.pow 2 f.top then some m else none

end Format

namespace Reading

/-- the exact meaning of the bits of a double -/
def ofFloat (x : Float) : Reading :=
  let b := x.toBits.toNat
  let negative := decide (Nat.pow 2 63 ≤ b)
  let e := b / Nat.pow 2 52 % Nat.pow 2 11
  let f := b % Nat.pow 2 52
  if e = 2047 then (if f = 0 then .infinite negative else .nan)
  else if e = 0 then .finite negative f
  else .finite negative ((Nat.pow 2 52 + f) * Nat.pow 2 (e - 1))

/-- the bits of a magnitude that a double can hold -/
def magnitudeBits (m : Nat) : Nat :=
  let s := m.log2 - 52
  s * Nat.pow 2 52 + m / Nat.pow 2 s

/-- the double with a given exact meaning -/
def toFloat : Reading → Float
  | .nan => 0.0 / 0.0
  | .infinite n => Float.ofBits (UInt64.ofNat ((if n then Nat.pow 2 63 else 0) + 2047 * Nat.pow 2 52))
  | .finite n m => Float.ofBits (UInt64.ofNat ((if n then Nat.pow 2 63 else 0) + magnitudeBits m))

/-- the number of a format nearest to `± num / den`, or infinity beyond its range -/
def ofRatio (f : Format) (negative : Bool) (num den : Nat) : Reading :=
  match f.round (num * unitsPerOne) den with
  | some m => .finite negative m
  | none => .infinite negative

end Reading

/-- the double nearest to an exact quotient; `none` beyond the range of doubles -/
def nearestDouble? (num : Int) (den : Nat) : Option Float :=
  match Format.double.round (num.natAbs * unitsPerOne) den with
  | some m => some (Reading.finite (decide (num < 0)) m).toFloat
  | none => none

def Format.narrow (f : Format) (x : Float) : Float :=
  match Reading.ofFloat x with
  | .finite n m =>
    match f.round m 1 with
    | some k => (Reading.finite n k).toFloat
    | none => (Reading.infinite n).toFloat
  | _ => x

def isFiniteDouble (x : Float) : Bool :=
  match Reading.ofFloat x with
  | .finite _ _ => true
  | _ => false

end MomentProgram
