/-
Programs with their dimensions as they were stated.

A program whose dimension and matrices are given by unsized whole numbers is a `Program`. A dimension of another kind is kept as it
is: it has to be above zero and to equal the dimension of every matrix, and the program then does what its matrices allow. One
without a full form has no inner product, and the primal matrix is unpacked in the arithmetic of the dimension.
-/
import MomentProgram.Program.Duality
import MomentProgram.Program.Encode
import MomentProgram.Program.Offset
import MomentProgram.Solution
import MomentProgram.Symmetric.Stated

namespace MomentProgram

/-- a program with a dimension of any kind: it is above zero and every matrix has it, as far as they can be compared -/
structure LooseProgram where
  dim : Value
  offset : Float
  fixed : StatedMatrix
  constraints : List StatedMatrix
  bounds : List Float
  dim_pos : dim.notPositive = .ok false
  fixed_dim : fixed.dim.equal dim = .ok true
  constraint_dim : ∀ A ∈ constraints, A.dim.equal dim = .ok true
  length_eq : bounds.length = constraints.length
  bounds_finite : ∀ b ∈ bounds, isFiniteDouble b = true
  offset_finite : isFiniteDouble offset = true

namespace LooseProgram

/-- a part that must be a matrix whose dimension equals the stated one -/
def checkedMatrix (dim : Value) (position : Option Nat) (part : Option StatedMatrix) :
    Outcome { A : StatedMatrix // A.dim.equal dim = .ok true } :=
  match part with
  | none => .error .notAMatrix
  | some A => match h : A.dim.equal dim with
    | .error e => .error e
    | .ok true => .ok ⟨A, h⟩
    | .ok false => do throw (.matrixDim position (← A.dim.spelled) (← dim.spelled))

def checkedMatrices (dim : Value) : Nat → (parts : List (Option StatedMatrix)) →
    Outcome { As : List StatedMatrix // As.length = parts.length ∧ ∀ A ∈ As, A.dim.equal dim = .ok true }
  | _, [] => .ok ⟨[], by simp⟩
  | i, part :: parts => match checkedMatrix dim (some i) part with
    | .error e => .error e
    | .ok A => match checkedMatrices dim (i + 1) parts with
      | .error e => .error e
      | .ok As => .ok ⟨A.1 :: As.1, by simp [As.2.1], by simpa [A.2] using As.2.2⟩

/-- the program of given parts, none of which is yet known to exist -/
def ofParts (dim : Value) (offset : Outcome Float) (fixed : Option StatedMatrix)
    (constraints : Outcome (List (Option StatedMatrix))) (bounds : Outcome (List Float)) : Outcome LooseProgram :=
  match hd : dim.notPositive with
  | .error e => .error e
  | .ok true => .error .dimNotPositive
  | .ok false => do
    let parts ← constraints
    let bs ← bounds
    if hb : bs.length = parts.length then
      let C ← checkedMatrix dim none fixed
      let As ← checkedMatrices dim 0 parts
      if hf : ∀ b ∈ bs, isFiniteDouble b = true then
        let c ← offset
        if hc : isFiniteDouble c = true then return ⟨dim, c, C.1, As.1, bs, hd, C.2, As.2.2, by rw [hb, As.2.1], hf, hc⟩
        else throw .dataNotFinite
      else throw .dataNotFinite
    else throw (.boundCount bs.length parts.length)

/-- the program with its dimension as a whole number; all matrices must have a full form -/
def counted (P : LooseProgram) : Outcome (Program Float) := do
  let C ← P.fixed.full
  let As ← P.constraints.mapM StatedMatrix.full
  Program.ofParts C.dim (.ok P.offset) (some C) (.ok (As.map some)) (.ok P.bounds)

/-- the inner product of a matrix with the symmetric part of an array of a shape -/
def innerWith (A : StatedMatrix) (S : Tensor Float) (shape : List Nat) : Outcome Float := do
  let A ← A.full
  A.innerAlong S (symmetricSteps shape)

/-- the inner products of the constraint matrices with the symmetric part of an array -/
def applyConstraints (P : LooseProgram) (X : Tensor Float) : Outcome (List Float) := do
  let S ← Program.symmetrised X
  P.constraints.mapM fun A => innerWith A S X.shape

/-- the objective at the symmetric part of an array -/
def primalObjective (P : LooseProgram) (X : Tensor Float) : Outcome Float := do
  let S ← Program.symmetrised X
  return P.offset + (← innerWith P.fixed S X.shape)

def dualObjective (P : LooseProgram) (y : List Float) : Outcome Float :=
  if y.length ≠ P.constraints.length then .error .dualObjectiveLength else .ok (P.offset + Program.dot y P.bounds)

def momentMatrix (P : LooseProgram) (y : List Float) : Outcome ((d : Nat) × Grid d Float) :=
  if y.length ≠ P.constraints.length then .error .momentMatrixLength
  else P.counted.bind fun Q => (Q.momentMatrix y).map fun g => ⟨Q.dim, g⟩

/-- the meaning of a status and of the arrays that came with it -/
def decode (P : LooseProgram) (status : Status) (packed duals : Option (Outcome (List Float))) (reported : Option (Outcome Float)) :
    Outcome (Solution Float) :=
  status.solution packed duals fun packed duals =>
    assembleOptimum P.offset P.bounds (packed.bind P.dim.unpackStated) duals reported

end LooseProgram

/-- a program with its dimensions as stated -/
inductive StatedProgram where
  | plain (P : Program Float)
  | loose (P : LooseProgram)

namespace StatedProgram

/-- the matrix of a part, if its dimension is an unsized whole number; a part that is no matrix stays one -/
def plainPart? : Option StatedMatrix → Option (Option (SymMatrix Float))
  | none => some none
  | some (.plain A) => some (some A)
  | some (.loose _) => none

/-- dimension and matrices as unsized whole numbers, if all are -/
def plainParts? (dim : Value) (fixed : Option StatedMatrix) (constraints : List (Option StatedMatrix)) :
    Option (Int × Option (SymMatrix Float) × List (Option (SymMatrix Float))) :=
  match dim with
  | .number (.int d) none => do return (d, ← plainPart? fixed, ← constraints.mapM plainPart?)
  | _ => none

/-- the program of given parts, none of which is yet known to exist -/
def ofParts (dim : Value) (offset : Outcome Float) (fixed : Option StatedMatrix)
    (constraints : Outcome (List (Option StatedMatrix))) (bounds : Outcome (List Float)) : Outcome StatedProgram :=
  match plainParts? dim fixed (constraints.toOption.getD []) with
  | some (d, C, As) =>
    ((Program.ofParts d offset C (constraints.map fun _ => As) bounds).map .plain).mapError Fault.writable
  | none => (LooseProgram.ofParts dim offset fixed constraints bounds).map .loose

/-- a program by its parts, in their dimensions as stated -/
def parts : StatedProgram → LooseProgram
  | .plain P => {
      dim := .ofInt P.dim
      offset := P.offset
      fixed := .plain P.fixed
      constraints := P.constraints.map .plain
      bounds := P.bounds
      dim_pos := Value.notPositive_ofInt (Int.natCast_pos.2 P.dim_pos)
      fixed_dim := by rw [StatedMatrix.dim, P.fixed_dim]; exact Value.equal_ofInt P.dim
      constraint_dim := by
        intro A hA
        obtain ⟨B, hB, rfl⟩ := List.mem_map.1 hA
        rw [StatedMatrix.dim, P.constraint_dim B hB]
        exact Value.equal_ofInt P.dim
      length_eq := by rw [List.length_map, P.length_eq]
      bounds_finite := P.bounds_finite
      offset_finite := P.offset_finite }
  | .loose P => P

def numConstraints (P : StatedProgram) : Nat := P.parts.constraints.length

/-- how many triples the matrices hold together -/
def nnz (P : StatedProgram) : Nat := P.parts.fixed.nnz + (P.parts.constraints.map StatedMatrix.nnz).foldr (· + ·) 0

/-- the length of the packed lower triangle of the matrix variable, in the arithmetic of the dimension -/
def packedLength (P : StatedProgram) : Outcome Value := P.parts.dim.packedLength

/-- the inner products of the constraint matrices with the symmetric part of an array -/
def applyConstraints (P : StatedProgram) (X : Tensor Float) : Outcome (List Float) :=
  match P with
  | .plain P => P.applyConstraints X
  | .loose P => P.applyConstraints X

/-- the objective at the symmetric part of an array -/
def primalObjective (P : StatedProgram) (X : Tensor Float) : Outcome Float :=
  match P with
  | .plain P => P.primalObjective X
  | .loose P => P.primalObjective X

def dualObjective (P : StatedProgram) (y : List Float) : Outcome Float :=
  match P with
  | .plain P => P.dualObjective y
  | .loose P => P.dualObjective y

def momentMatrix (P : StatedProgram) (y : List Float) : Outcome ((d : Nat) × Grid d Float) :=
  match P with
  | .plain P => (P.momentMatrix y).map fun g => ⟨P.dim, g⟩
  | .loose P => P.momentMatrix y

/-- the meaning of a status and of the arrays that came with it -/
def decode (P : StatedProgram) (status : Status) (packed duals : Option (Outcome (List Float))) (reported : Option (Outcome Float)) :
    Outcome (Solution Float) :=
  match P with
  | .plain P => (P.decode status packed duals reported).mapError Fault.writable
  | .loose P => P.decode status packed duals reported

/-- the dimension as written in a record: without its fraction -/
def dimText (P : StatedProgram) : String :=
  match (P.parts.dim.extentNumber).bind fun p => (match p.1 with
      | .complex re _ => Number.truncateFloat re
      | n => n.truncate) with
  | .ok d => toString d
  | .error _ => "0"

def encodedRecord (P : StatedProgram) : Record :=
  match P with
  | .plain P => P.encodedRecord
  | P => { level := .debug, origin := .encoding, text := encodedText P.dimText P.numConstraints P.nnz }

end StatedProgram

end MomentProgram
