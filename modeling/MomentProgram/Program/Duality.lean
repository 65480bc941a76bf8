/-
Checking points of a program and of its dual.

An array is first made symmetric: half of the array plus its transpose. `applyConstraints` gives its inner products with the
constraint matrices and `primalObjective` the offset plus that with the fixed matrix. `dualObjective` is the offset plus the
inner product of multipliers and bounds, `momentMatrix` the fixed matrix minus the constraint matrices weighted by the
multipliers, each cell reduced constraint by constraint.
-/
import MomentProgram.Program

namespace MomentProgram

namespace Program

variable {α : Type} [Add α] [Sub α] [Mul α] [Scalar α]

/-- half of an array plus its transpose -/
def symmetrised? (X : Tensor α) : Option (Tensor α) :=
  (Tensor.zipFitted? (· + ·) X (X.transpose Scalar.zero) Scalar.zero Scalar.zero).map fun S =>
    S.map fun x => Scalar.half * x

/-- the symmetric part of an array, if its shape fits the transposed one -/
def symmetrised (X : Tensor α) : Outcome (Tensor α) :=
  match symmetrised? X with
  | some S => .ok S
  | none => .error .incompatibleShapes

/-- the inner products of the constraint matrices with the symmetric part of an array -/
def applyConstraints (P : Program α) (X : Tensor α) : Outcome (List α) := do
  let S ← symmetrised X
  P.constraints.mapM fun A => A.innerAlong S (symmetricSteps X.shape)

/-- the objective at the symmetric part of an array -/
def primalObjective (P : Program α) (X : Tensor α) : Outcome α := do
  let S ← symmetrised X
  let v ← P.fixed.innerAlong S (symmetricSteps X.shape)
  return P.offset + v

/-- the inner product of two lists: a single product as it is, several added from zero -/
def dot (x y : List α) : α :=
  match List.zipWith (· * ·) x y with
  | [p] => p
  | ps => ps.foldl (· + ·) Scalar.zero

def dualObjective (P : Program α) (y : List α) : Outcome α :=
  if y.length ≠ P.numConstraints then .error .dualObjectiveLength else .ok (P.offset + dot y P.bounds)

def momentCell (P : Program α) (y : List α) (r c : Nat) : α :=
  (y.zip P.constraints).foldl (fun acc p => acc - p.1 * p.2.cell r c) (P.fixed.cell r c)

/-- the slack of the dual: the Gram matrix with the multipliers as moments -/
def momentMatrix (P : Program α) (y : List α) : Outcome (Grid P.dim α) :=
  if y.length ≠ P.numConstraints then .error .momentMatrixLength
  else .ok (.ofFn fun r c => P.momentCell y r.val c.val)

end Program

end MomentProgram
