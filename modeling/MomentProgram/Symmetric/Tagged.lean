/-
Collecting the cells of an array that carry a tag.

`lowerTriples` lists the cells on or below the diagonal that a test picks, row by row, each with a value of its own.
`ofMask` reads marks and phases from two arrays of any shape: the marks need two axes, or one that stands for every row, and
each marked cell must exist among the phases; what the picked phases become is given. `ofTaggedGrid` is the same for square arrays,
where every cell exists.
-/
import MomentProgram.Symmetric.Matrix
import MomentProgram.Array.Tensor

namespace MomentProgram

/-- the picked cells on or below the diagonal of a `p × q` array, row by row -/
def lowerTriples {α : Type} {p q : Nat} (pick : Fin p → Fin q → Bool) (value : Fin p → Fin q → α) : List (Triple α) :=
  (List.finRange p).flatMap fun r =>
    ((List.finRange q).filter fun c => decide (c.val ≤ r.val) && pick r c).map fun c => ⟨r.val, c.val, value r c⟩

theorem mem_lowerTriples {α : Type} {p q : Nat} {pick : Fin p → Fin q → Bool} {value : Fin p → Fin q → α} {t : Triple α} :
    t ∈ lowerTriples pick value ↔
      ∃ r c, c.val ≤ r.val ∧ pick r c = true ∧ t = ⟨r.val, c.val, value r c⟩ := by
  simp only [lowerTriples, List.mem_flatMap, List.mem_finRange, true_and, List.mem_map, List.mem_filter, Bool.and_eq_true,
    decide_eq_true_eq]
  constructor
  · rintro ⟨r, c, ⟨h, hp⟩, rfl⟩; exact ⟨r, c, h, hp, rfl⟩
  · rintro ⟨r, c, h, hp, rfl⟩; exact ⟨r, c, ⟨h, hp⟩, rfl⟩

namespace Tensor

variable {α : Type}

/-- the entries behind the first two indices of an array, if it has such a place -/
def block? (t : Tensor α) (r c : Nat) : Option (List α) :=
  match t.shape with
  | a :: b :: rest =>
    if r < a ∧ c < b then
      let size := shapeSize rest
      some ((t.toList.drop ((r * b + c) * size)).take size)
    else none
  | _ => none

end Tensor

namespace SymMatrix

variable {α : Type}

/-- the marked cells on or below the diagonal with the entries of the phases behind them -/
def markedBlocks (mask : Tensor Bool) (phases : Tensor α) : Outcome (List (Triple (Option (List α)))) :=
  let here (ix : List Nat) : Bool := mask.get false ix
  match mask.shape with
  | [n] => .ok (lowerTriples (fun (_ c : Fin n) => here [c.val]) fun r c => phases.block? r.val c.val)
  | [p, q] => .ok (lowerTriples (fun (r : Fin p) (c : Fin q) => here [r.val, c.val]) fun r c => phases.block? r.val c.val)
  | _ => .error .incompatibleShapes

/-- a marked cell with the entries that were found behind it -/
def foundBlock (t : Triple (Option (List α))) : Outcome (Triple (List α)) :=
  match t.value with
  | some l => .ok ⟨t.row, t.col, l⟩
  | none => .error .missingEntry

/-- the entries behind some cells as one array; each cell has those of the axes from the third on -/
def stackedBlocks (blocks : List (Triple (List α))) (axes : List Nat) : Tensor α :=
  let l := blocks.flatMap (·.value)
  (Tensor.ofList? (blocks.length :: axes) l).getD (.ofVector l)

/-- the matrix of so many rows with the marked cells, each with one of the values that the phases behind them become -/
def ofMask (rows : Nat) (mask : Tensor Bool) (phases : Tensor α) (change : Tensor α → Outcome (List α)) :
    Outcome (SymMatrix α) := do
  let blocks ← markedBlocks mask phases
  if phases.shape.length < 2 then throw .missingEntry
  let found ← blocks.mapM foundBlock
  let values ← change (stackedBlocks found (phases.shape.drop 2))
  if values.length ≠ found.length then throw .tripleLengths
  ofTriples rows (List.zipWith (fun (t : Triple (List α)) v => ⟨t.row, t.col, v⟩) found values)

/-- the matrix of the cells of a square array whose tag passes a test, each with its phase changed by a function -/
def ofTaggedGrid {d : Nat} (tags : Grid d Int) (pick : Int → Bool) (phases : Grid d α) (f : α → α) : Outcome (SymMatrix α) :=
  ofTriples d (lowerTriples (fun r c => pick (tags.get r c)) fun r c => f (phases.get r c))

end SymMatrix

end MomentProgram
