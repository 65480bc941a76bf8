/-
The order in which the entries of an array lie in store.

An array lies along its axes, one of which runs fastest. `Steps` says how far apart neighbours along each axis lie, counted from the
last axis on; zero means that the axis repeats. Row by row, the last axis runs fastest (`rowSteps`). A result made from several
arrays lies the way they do (`axisOrder`): its axes are sorted by their steps, and where the arrays contradict each other the later
axis runs faster. The order matters only because rounded sums follow it.
-/
import MomentProgram.Array.Tensor

namespace MomentProgram

/-- how far apart neighbours along each axis lie, from the last axis on -/
abbrev Steps := List Nat

/-- products of the extents before each one -/
def cumulative : Nat → List Nat → Steps
  | _, [] => []
  | p, n :: ns => p :: cumulative (p * n) ns

def rowSteps (shape : List Nat) : Steps := cumulative 1 shape.reverse

/-- the steps of an array inside a common shape of so many axes: an axis of extent one and a missing one repeat -/
def alignedSteps (shape : List Nat) (steps : Steps) (axes : Nat) : Steps :=
  let own := List.zipWith (fun n s => if n = 1 then 0 else s) shape.reverse steps
  own ++ List.replicate (axes - own.length) 0

/-- whether an axis runs faster than another one by what the arrays say; `none` if no array has both -/
def runsFaster (arrays : List Steps) (a b : Nat) : Option Bool :=
  let hear (r : Option Bool) (s : Steps) : Option Bool :=
    let x := s.getD a 0
    let y := s.getD b 0
    if x = 0 ∨ y = 0 then r
    else if y ≤ x then some false
    else some (r.getD true)
  arrays.foldl hear none

/-- how many of some axes, the slowest first, an axis moves past: up to the last one that it is faster than, before one that it is
not faster than -/
def passes (arrays : List Steps) (a : Nat) : Nat → Nat → List Nat → Nat
  | _, past, [] => past
  | i, past, b :: rest => match runsFaster arrays a b with
    | none => passes arrays a (i + 1) past rest
    | some true => passes arrays a (i + 1) (i + 1) rest
    | some false => past

/-- an axis put among others, the slowest first -/
def insertAxis (arrays : List Steps) (slow : List Nat) (a : Nat) : List Nat :=
  let past := passes arrays a 0 0 slow
  slow.take past ++ a :: slow.drop past

/-- the axes of a result, counted from the last one, the slowest first -/
def axisOrder (arrays : List Steps) (axes : Nat) : List Nat := (List.range axes).foldl (insertAxis arrays) []

/-- the extent of an axis counted from the last one -/
def extentAt (shape : List Nat) (a : Nat) : Nat := shape.reverse.getD a 1

/-- the steps of an array of a shape whose axes have an order -/
def orderedSteps (order : List Nat) (shape : List Nat) : Steps :=
  (List.range shape.length).map fun a => ((order.reverse.takeWhile (· != a)).map (extentAt shape)).foldl (· * ·) 1

/-- the multi-indices of a shape in the order of the axes -/
def orderedIndices (order : List Nat) (shape : List Nat) : List (List Nat) :=
  (indices (order.map (extentAt shape))).map fun ix =>
    (List.range shape.length).map fun p => ix.getD (order.idxOf (shape.length - 1 - p)) 0

/-- the steps of an array plus its transpose -/
def symmetricSteps (shape : List Nat) : Steps :=
  let axes := shape.length
  let common := (fitted? shape shape.reverse).getD shape
  let order := axisOrder
    [alignedSteps shape (rowSteps shape) axes, alignedSteps shape.reverse (rowSteps shape).reverse axes] axes
  orderedSteps order common

end MomentProgram
