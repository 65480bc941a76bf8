/-
Relaxations that report facts of their own.

A relaxation from elsewhere may report anything about its Gram matrix: that the identity comes first, the number of monomials, its
size. What it reports is kept as given and looked at only when it is encoded: the first by its truth, the second by comparison with
the number of coefficients, the third as the dimension of the program. It may also offer matrices of its own, in any dimension, or things
that are none. Where nothing is reported the surface speaks for itself.
-/
import MomentProgram.Program.Stated

namespace MomentProgram

structure ReportedSurface where
  surface : Surface Float Value
  identityFirst : Option Value
  monomials : Option Value
  size : Option Value
  /-- what it offers as the fixed matrix (0) and the constraint matrices, in place of those of the surface -/
  matrices : Option (Nat → Outcome (Option StatedMatrix))

namespace ReportedSurface

/-- a surface about which nothing else is reported -/
def ofSurface (S : Surface Float Value) : ReportedSurface := ⟨S, none, none, none, none⟩

/-- whether a number of monomials can be counted up to -/
def isCounter : Value → Bool
  | .number (.int _) _ => true
  | .number (.bool _) _ => true
  | .array (.int _ _) [] _ => true
  | .array .bool [] _ => true
  | _ => false

/-- the truth of what is reported about the identity -/
def startsWithIdentity (R : ReportedSurface) : Outcome Bool :=
  match R.identityFirst with
  | none => .ok R.surface.identityFirst
  | some v => v.truthy

/-- the coefficients, if they are as many as the monomials reported -/
def countedObjective (R : ReportedSurface) : Outcome (List Value) := do
  let n := R.monomials.getD (.ofInt R.surface.monomials)
  match R.surface.objective with
  | none => throw .notIterable
  | some objective =>
    if ← (Value.ofInt objective.length).equal n then
      if isCounter n then return objective else throw .notNumeric
    else throw (.objectiveEntries objective.length (← n.spelled))

/-- the matrix that is offered under a number -/
def matrix (R : ReportedSurface) (k : Nat) : Outcome (Option StatedMatrix) :=
  match R.matrices with
  | some offered => offered k
  | none => (if k = 0 then R.surface.fixed else R.surface.constraint k).map (Option.map .plain)

def encodeReported (toReal : Value → Outcome Float) (R : ReportedSurface) : Outcome StatedProgram := do
  if !(← R.startsWithIdentity) then throw .identityMissing
  let objective ← R.countedObjective
  let fixed ← R.matrix 0
  let constraints ← ((List.range (objective.length - 1)).mapM fun i => R.matrix (i + 1)).mapError Fault.outOfGenerator
  let bounds ← Surface.boundsOf toReal objective
  let offset ← Surface.offsetOf toReal objective
  StatedProgram.ofParts (R.size.getD (.ofInt R.surface.size)) (.ok offset) fixed (.ok constraints) (.ok bounds)

def encode (toReal : Value → Outcome Float) (R : ReportedSurface) : Outcome StatedProgram :=
  match R.identityFirst, R.monomials, R.size, R.matrices with
  | none, none, none, none => (R.surface.encode toReal).map .plain
  | _, _, _, _ => R.encodeReported toReal

end ReportedSurface

end MomentProgram
