/-
Symmetric matrices stored by their lower triangle.

A `SymMatrix` is a dimension and a list of triples (row, column, value), each on or below the diagonal and inside the matrix; a
triple stands for its cell and the mirrored one. `ofTriples` is the only way to build one from unchecked numbers and refuses in
a fixed order: a triple above the diagonal, a triple outside, a dimension beyond 64-bit numbers, a cell given twice. Cells are
told apart by `cellKey`, row · dim + column in 64-bit arithmetic, so beyond dimension 2^32 two cells can share a key and are
then refused as one given twice.
-/
import MomentProgram.Fault
import MomentProgram.Scalar

namespace MomentProgram

structure Triple (α : Type) where
  row : Nat
  col : Nat
  value : α
  deriving DecidableEq, Repr

/-- the key that tells cells apart: `row * dim + col` modulo 2^64 -/
def cellKey (dim row col : Nat) : Nat := (row * dim + col) % Nat.pow 2 64

/-- from this dimension on, keys are out of reach of 64-bit signed numbers -/
def dimLimit : Nat := Nat.pow 2 63

/-- a symmetric matrix by the triples of its lower triangle, in the order given -/
structure SymMatrix (α : Type) where
  dim : Nat
  triples : List (Triple α)
  lower : ∀ t ∈ triples, t.col ≤ t.row
  inside : ∀ t ∈ triples, t.row < dim
  keyed : triples ≠ [] → dim < dimLimit
  distinct : (triples.map fun t => cellKey dim t.row t.col).Nodup

namespace SymMatrix

variable {α β : Type}

def nnz (A : SymMatrix α) : Nat := A.triples.length

/-- the matrix of given triples, checked in order -/
def ofTriples (dim : Nat) (ts : List (Triple α)) : Outcome (SymMatrix α) :=
  if hl : ∀ t ∈ ts, t.col ≤ t.row then
    if hi : ∀ t ∈ ts, t.row < dim then
      if hk : ts ≠ [] → dim < dimLimit then
        if hd : (ts.map fun t => cellKey dim t.row t.col).Nodup then .ok ⟨dim, ts, hl, hi, hk, hd⟩
        else .error .duplicateCell
      else .error .tooLarge
    else .error (.outsideMatrix (toString dim))
  else .error .aboveDiagonal

/-- three lists of one length as triples of whole numbers -/
def zipTriples : List Int → List Int → List α → List (Int × Int × α)
  | r :: rs, c :: cs, v :: vs => (r, c, v) :: zipTriples rs cs vs
  | _, _, _ => []

/-- the matrix of rows, columns and values given as separate lists of unchecked whole numbers -/
def ofLists (dim : Int) (rows cols : List Int) (data : List α) : Outcome (SymMatrix α) :=
  if dim < 0 then .error .negativeDim
  else if ¬ (rows.length = cols.length ∧ cols.length = data.length) then .error .tripleLengths
  else
    let ts := zipTriples rows cols data
    if ts.any fun t => decide (t.1 < t.2.1) then .error .aboveDiagonal
    else if ts.any fun t => decide (t.2.1 < 0) then .error (.outsideMatrix (toString dim))
    else ofTriples dim.toNat (ts.map fun t => ⟨t.1.toNat, t.2.1.toNat, t.2.2⟩)

def map (f : α → β) (A : SymMatrix α) : SymMatrix β where
  dim := A.dim
  triples := A.triples.map fun t => ⟨t.row, t.col, f t.value⟩
  lower := by simpa using fun a ha => A.lower a ha
  inside := by simpa using fun a ha => A.inside a ha
  keyed := by simpa using A.keyed
  distinct := by simpa [List.map_map, Function.comp_def] using A.distinct

/-- the triple that stands for a cell or for its mirror -/
def triple? (A : SymMatrix α) (r c : Nat) : Option (Triple α) :=
  A.triples.find? fun t => t.row == max r c && t.col == min r c

/-- the value stored for a cell of the full matrix, if one is -/
def storedAt (A : SymMatrix α) (r c : Nat) : Option α := (A.triple? r c).map (·.value)

theorem storedAt_comm (A : SymMatrix α) (r c : Nat) : A.storedAt r c = A.storedAt c r := by
  simp only [storedAt, triple?, Nat.max_comm r c, Nat.min_comm r c]

end SymMatrix

end MomentProgram
