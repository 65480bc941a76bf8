/-
Tolerances and settings of a solver session.

A tolerance is usable if its double is finite and its exact value is above zero. It is kept as given, because the solver is
handed the number itself and not its double.

Settings check their tolerance when they are made, and an override is checked when it is given. Another tolerance may be put into
settings later (`Settings.changed`), and nothing checks that one.
-/
import MomentProgram.Value.Extent

namespace MomentProgram

/-- a value as a tolerance, and its double; `ofValue` makes the accepted ones -/
structure Tolerance where
  given : Value
  double : Float
  deriving Repr

namespace Tolerance

/-- a value as a tolerance, if its double is finite and it is above zero; a foreign object with a finite double still cannot be
compared with zero -/
def ofValue (v : Value) : Outcome Tolerance :=
  match v with
  | .number _ _ | .array _ _ _ | .foreign _ _ => do
    let x ← v.toFloat
    if !isFiniteDouble x then throw .badTolerance
    if ← v.notPositive then throw .badTolerance
    return ⟨v, x⟩
  | _ => .error .notNumeric

/-- the tolerance of a session that is given none -/
def standard : Tolerance := ⟨.ofFloat 1e-9, 1e-9⟩

end Tolerance

structure Settings where
  tolerance : Tolerance
  /-- whether the solver's own messages are logged, as given -/
  logging : Value
  deriving Repr

namespace Settings

/-- settings of possibly absent values -/
def ofValues (tolerance logging : Option Value) : Outcome Settings := do
  let t ← match tolerance with
    | none => pure Tolerance.standard
    | some v => Tolerance.ofValue v
  return ⟨t, logging.getD (.ofBool true)⟩

/-- the settings of a session that is given none -/
def standard : Settings := ⟨.standard, .ofBool true⟩

/-- settings into which another tolerance was put, of which nobody asks whether it would be accepted -/
def changed (s : Settings) (t : Tolerance) : Settings := { s with tolerance := t }

/-- the tolerance of a session: an override, checked like a setting, or the setting as it stands -/
def resolve (s : Settings) (override : Option Value) : Outcome Tolerance :=
  match override with
  | none => .ok s.tolerance
  | some v => Tolerance.ofValue v

end Settings

end MomentProgram
