/-
The full matrix behind a stored lower triangle.

`cells` lists the stored cells of both triangles, row by row with ascending columns, each with its stored value: the canonical
order, whatever the order of the triples. `Compressed` is the same in compressed-row form. `dense` fills the whole array: a
stored value is added to zero, so a stored negative zero reads as zero, and every other cell is zero.
-/
import MomentProgram.Symmetric.Matrix
import MomentProgram.Array.Grid

namespace MomentProgram

/-- one cell comes before another: by row, then by column -/
def Triple.before {α : Type} (s t : Triple α) : Bool := decide (s.row < t.row ∨ s.row = t.row ∧ s.col < t.col)

/-- a triple put in front of the first one it does not follow -/
def insertTriple {α : Type} (t : Triple α) : List (Triple α) → List (Triple α)
  | [] => [t]
  | s :: rest => if s.before t then s :: insertTriple t rest else t :: s :: rest

/-- triples by row, then by column -/
def sortTriples {α : Type} (ts : List (Triple α)) : List (Triple α) := ts.foldr insertTriple []

namespace SymMatrix

variable {α : Type}

/-- the mirrored cells of the triples below the diagonal -/
def mirrored (A : SymMatrix α) : List (Triple α) :=
  (A.triples.filter fun t => t.row != t.col).map fun t => ⟨t.col, t.row, t.value⟩

/-- the stored cells of the full matrix, by row, then by column -/
def cells (A : SymMatrix α) : List (Triple α) := sortTriples (A.triples ++ A.mirrored)

/-- compressed rows: row `r` has the entries from `starts[r]` to `starts[r + 1]` -/
structure Compressed (α : Type) where
  dim : Nat
  starts : List Nat
  cols : List Nat
  values : List α
  deriving Repr

/-- the full matrix in compressed rows -/
def compressed (A : SymMatrix α) : Compressed α :=
  let cs := A.cells
  ⟨A.dim, (List.range (A.dim + 1)).map fun r => cs.countP fun t => decide (t.row < r), cs.map (·.col), cs.map (·.value)⟩

/-- the value of a cell of the full matrix -/
def cell [Scalar α] (A : SymMatrix α) (r c : Nat) : α :=
  match A.storedAt r c with
  | some v => Scalar.fromZero v
  | none => Scalar.zero

theorem cell_comm [Scalar α] (A : SymMatrix α) (r c : Nat) : A.cell r c = A.cell c r := by
  simp only [cell, storedAt_comm A r c]

def dense [Scalar α] (A : SymMatrix α) (d : Nat) : Grid d α := .ofFn fun r c => A.cell r.val c.val

end SymMatrix

end MomentProgram
