/-
Matrices with their dimension as it was stated.

A dimension is nearly always an unsized whole number, and then the matrix is a `SymMatrix`. Any other number may be offered as well:
a `LooseMatrix` keeps it as it is, and its triples are checked against it in its own arithmetic (`Value.reaches`, `Value.keysClash`).
That they passed these checks is part of the type. The full matrix exists only if the dimension counts rows.
-/
import MomentProgram.Symmetric.Inner
import MomentProgram.Value.Extent

namespace MomentProgram

/-- the greatest of some whole numbers, at least zero -/
def greatest (l : List Int) : Int := l.foldl max 0

namespace Value

/-- whether a row of some triples is the dimension or beyond -/
def leavesOut (dim : Value) (ts : List (Triple Float)) : Outcome Bool :=
  if ts = [] then .ok false else dim.reaches (greatest (ts.map fun t => (t.row : Int)))

/-- whether two of some triples share a key in a dimension -/
def meetsTwice (dim : Value) (ts : List (Triple Float)) : Outcome Bool :=
  if ts = [] then .ok false else dim.keysClash (ts.map fun t => ((t.row : Int), (t.col : Int)))

end Value

/-- a matrix by its triples, with a dimension that is no unsized whole number -/
structure LooseMatrix where
  dim : Value
  triples : List (Triple Float)
  nonneg : dim.belowZero = .ok false
  lower : ∀ t ∈ triples, t.col ≤ t.row
  inside : dim.leavesOut triples = .ok false
  distinct : dim.meetsTwice triples = .ok false

namespace LooseMatrix

/-- the matrix of given triples in a dimension that is not below zero, checked in order -/
def ofTriples (dim : Value) (hdim : dim.belowZero = .ok false) (ts : List (Triple Float)) : Outcome LooseMatrix :=
  if hl : ∀ t ∈ ts, t.col ≤ t.row then
    match hi : dim.leavesOut ts with
    | .error e => .error e
    | .ok true => dim.spelled.bind fun d => .error (.outsideMatrix d)
    | .ok false => match hd : dim.meetsTwice ts with
      | .error e => .error e
      | .ok true => .error .duplicateCell
      | .ok false => .ok ⟨dim, ts, hdim, hl, hi, hd⟩
  else .error .aboveDiagonal

/-- the matrix of rows, columns and values given as separate lists of unchecked whole numbers -/
def ofLists (dim : Value) (hdim : dim.belowZero = .ok false) (rows cols : List Int) (data : List Float) : Outcome LooseMatrix :=
  if ¬ (rows.length = cols.length ∧ cols.length = data.length) then .error .tripleLengths
  else
    let ts := SymMatrix.zipTriples rows cols data
    if ts.any fun t => decide (t.1 < t.2.1) then .error .aboveDiagonal
    else if ts.any fun t => decide (t.2.1 < 0) then dim.spelled.bind fun d => .error (.outsideMatrix d)
    else ofTriples dim hdim (ts.map fun t => ⟨t.1.toNat, t.2.1.toNat, t.2.2⟩)

/-- the full matrix, if the dimension counts rows -/
def full? (A : LooseMatrix) : Option (SymMatrix Float) :=
  A.dim.count?.bind fun d => (SymMatrix.ofTriples d.toNat A.triples).toOption

end LooseMatrix

/-- a matrix by its triples, with its dimension as stated -/
inductive StatedMatrix where
  | plain (A : SymMatrix Float)
  | loose (A : LooseMatrix)

namespace StatedMatrix

def dim : StatedMatrix → Value
  | .plain A => .ofInt A.dim
  | .loose A => A.dim

def triples : StatedMatrix → List (Triple Float)
  | .plain A => A.triples
  | .loose A => A.triples

def nnz (A : StatedMatrix) : Nat := A.triples.length

def full : StatedMatrix → Outcome (SymMatrix Float)
  | .plain A => .ok A
  | .loose A => match A.full? with
    | some B => .ok B
    | none => .error .notNumeric

/-- the matrix of rows, columns and values given as separate lists, in a dimension that is not below zero -/
def ofLists (dim : Value) (hdim : dim.belowZero = .ok false) (rows cols : List Int) (data : List Float) : Outcome StatedMatrix :=
  match dim, hdim with
  | .number (.int d) none, _ => ((SymMatrix.ofLists d rows cols data).map .plain).mapError Fault.writable
  | dim, hdim => (LooseMatrix.ofLists dim hdim rows cols data).map .loose

/-- the matrix of values for dimension, rows, columns and entries; a negative dimension is refused before the lists are read -/
def ofValues (dim rows cols data : Value) : Outcome StatedMatrix :=
  match hdim : dim.belowZero with
  | .error e => .error e
  | .ok true => .error .negativeDim
  | .ok false => do
    let rs ← rows.toInts
    let cs ← cols.toInts
    let vs ← data.toFloats
    ofLists dim hdim rs cs vs

end StatedMatrix

end MomentProgram
