/-
The decimal digits of a magnitude, chosen by exact integer arithmetic.

Three choices: the fewest digits that read back to the same number of a format (`shortest`), a given count of significant
digits (`significant`) and a given count of places after the point (`places`). All three round the exact value on a decimal
grid, a half going to the even neighbour. A choice is a `Decimal`: digits times a power of ten.
-/
import MomentProgram.Number.Magnitude

namespace MomentProgram

/-- `digits * 10 ^ exponent` -/
structure Decimal where
  digits : Nat
  exponent : Int
  deriving DecidableEq, Repr

namespace Decimal

def digitsOf (n : Nat) : List Char := Nat.toDigits 10 n

def digitCount (n : Nat) : Nat := (digitsOf n).length

/-- a positive magnitude lies in `[10 ^ (k - 1), 10 ^ k)` for `k = leading m`; no double is below 10^-400 -/
def leading (m : Nat) : Int := (digitCount (m * Nat.pow 10 400 / unitsPerOne) : Int) - 400

/-- numerator and denominator of the value of `m` units divided by `10 ^ e` -/
def onGrid (m : Nat) (e : Int) : Nat × Nat := (m * Nat.pow 10 (-e).toNat, unitsPerOne * Nat.pow 10 e.toNat)

/-- the point of the grid `10 ^ e` nearest to a magnitude -/
def nearest (m : Nat) (e : Int) : Decimal :=
  let g := onGrid m e
  ⟨Format.nearestQuotient g.1 g.2, e⟩

/-- `d` lies among the reals that the format rounds to `m` units: halfway to both neighbours, ends included for an even
significand; below a power of two the neighbour is half as far -/
def readsBack (f : Format) (m : Nat) (d : Decimal) : Bool :=
  let gap := Nat.pow 2 (f.step m)
  let narrow := decide (m = Nat.pow 2 m.log2 ∧ f.least < m.log2 + 1 - f.precision)
  let low := if narrow then 4 * m - gap else 4 * m - 2 * gap
  let high := 4 * m + 2 * gap
  let even := m / gap % 2 == 0
  let point := 4 * d.digits * Nat.pow 10 d.exponent.toNat * unitsPerOne
  let low' := low * Nat.pow 10 (-d.exponent).toNat
  let high' := high * Nat.pow 10 (-d.exponent).toNat
  if even then low' ≤ point && point ≤ high' else low' < point && point < high'

/-- trailing zeros of the digits moved into the exponent, at most `fuel` of them -/
def strip : Nat → Decimal → Decimal
  | 0, d => d
  | fuel + 1, d => if d.digits ≠ 0 ∧ d.digits % 10 = 0 then strip fuel ⟨d.digits / 10, d.exponent + 1⟩ else d

/-- the point of the grid `10 ^ e` that reads back to `m` units, if one of the two around the value does; of two the nearest -/
def onGrid? (f : Format) (m : Nat) (e : Int) : Option Decimal :=
  let g := onGrid m e
  let around := [nearest m e, ⟨g.1 / g.2, e⟩, ⟨g.1 / g.2 + 1, e⟩]
  around.find? (readsBack f m)

/-- the fewest digits that read back to `m` units in the format, the nearest of those; seventeen always do -/
def shortest (f : Format) (m : Nat) : Decimal :=
  let k := leading m
  let grids := (List.range 17).map fun n => k - (n + 1 : Nat)
  strip 17 ((grids.findSome? (onGrid? f m)).getD (nearest m (k - 17)))

/-- `n` significant digits; a carry to the next power of ten drops the last zero -/
def significant (n m : Nat) : Decimal :=
  let d := nearest m (leading m - n)
  if d.digits = Nat.pow 10 n then ⟨Nat.pow 10 (n - 1), d.exponent + 1⟩ else d

/-- `n` places after the point -/
def places (n m : Nat) : Decimal := nearest m (-(n : Int))

end Decimal

end MomentProgram
