/-
The inner product of a symmetric matrix with an array.

The full matrix times the array entry by entry, over the shape that both fit, summed in blocked order. Arrays of at most two
axes are read at the stored cells alone, so what stands elsewhere does not matter; an array of more axes meets every cell, in the
order in which the products lie, and a matrix of dimension one is a number that meets every entry of the array.
-/
import MomentProgram.Symmetric.Full
import MomentProgram.Array.Layout
import MomentProgram.Array.Sum

namespace MomentProgram

namespace SymMatrix

variable {α : Type} [Add α] [Mul α] [Scalar α]

/-- the stored cells times the entries that an index rule picks from the array -/
def storedProducts (A : SymMatrix α) (X : Tensor α) (pick : Triple α → List Nat) : List α :=
  A.cells.map fun t => t.value * X.get Scalar.zero (pick t)

/-- every cell times the entries that it meets in an array, in the order in which the products lie -/
def allProducts? (A : SymMatrix α) (X : Tensor α) (steps : Steps) : Option (List α) :=
  let square := [A.dim, A.dim]
  (Tensor.zipFitted? (· * ·) (.ofGrid (A.dense A.dim)) X Scalar.zero Scalar.zero).map fun products =>
    let axes := products.shape.length
    let order := axisOrder [alignedSteps square (rowSteps square) axes, alignedSteps X.shape steps axes] axes
    (orderedIndices order products.shape).map (products.get Scalar.zero)

/-- the products that enter the inner product, in order; `none` if the shapes do not fit -/
def products? (A : SymMatrix α) (X : Tensor α) (steps : Steps) : Option (List α) :=
  let d := A.dim
  if 2 < X.shape.length then A.allProducts? X steps
  else if shapeSize X.shape = 1 then
    some (A.storedProducts X fun _ => X.shape.map fun _ => 0)
  else if d = 1 then
    let a := blockSum (A.cells.map (·.value))
    some (X.toList.map fun x => a * x)
  else if X.shape = [d, d] then some (A.storedProducts X fun t => [t.row, t.col])
  else if X.shape = [1, d] then some (A.storedProducts X fun t => [0, t.col])
  else if X.shape = [d] then some (A.storedProducts X fun t => [t.col])
  else if X.shape = [d, 1] then some (A.storedProducts X fun t => [t.row, 0])
  else none

/-- the inner product with an array that fits and lies in given steps -/
def innerAlong (A : SymMatrix α) (X : Tensor α) (steps : Steps) : Outcome α :=
  match A.products? X steps with
  | some ps => .ok (blockSum ps)
  | none => .error .incompatibleShapes

/-- the inner product with an array that fits and lies row by row -/
def inner (A : SymMatrix α) (X : Tensor α) : Outcome α := A.innerAlong X (rowSteps X.shape)

end SymMatrix

end MomentProgram
