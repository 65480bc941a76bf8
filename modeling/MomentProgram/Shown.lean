/-
Results as values.

A result can itself be offered where a value is wanted. It is no number, but it has a written form, which a refusal shows, and some
results can be keys of a table: a status is one of a closed list of texts, a reason is a record without arrays. Matrices, programs
and optima are records that hold arrays, so they are never keys.
-/
import MomentProgram.Relaxation
import MomentProgram.Solver.Session

namespace MomentProgram

namespace Value

/-- doubles as a typed array of a shape -/
def ofDoubles (shape : List Nat) (l : List Float) : Value := .array (.float .double) shape (l.map Number.float)

/-- 64-bit whole numbers as a typed array of a shape -/
def ofWords (shape : List Nat) (l : List Int) : Value := .array (.int 64 true) shape (l.map Number.int)

def ofTensor (t : Tensor Float) : Value := ofDoubles t.shape t.toList

/-- a record that holds arrays or may change, and so is no key -/
def ofFields (name : String) (fields : List (String × Value)) : Value :=
  .record name false (fields.map (·.1)) (fields.map (·.2))

end Value

def StatedMatrix.toValue (A : StatedMatrix) : Value :=
  let n := A.triples.length
  .ofFields "LowerTriangularMatrix"
    [("dim", A.dim), ("rows", .ofWords [n] (A.triples.map fun t => (t.row : Int))),
      ("cols", .ofWords [n] (A.triples.map fun t => (t.col : Int))), ("data", .ofDoubles [n] (A.triples.map (·.value)))]

def Gram.toValue {d : Nat} (g : Gram d Float) : Value :=
  .ofFields "GramMatrix" [("moment_indices", .ofWords [d, d] g.tags.toList), ("phases", .ofDoubles [d, d] g.phases.toList)]

/-- a relaxation by its Gram matrix and its coefficients -/
def Relaxation.toValue (R : Relaxation Float Value) : Value :=
  .ofFields "MomentRelaxation" [("gram_matrix", R.gram.toValue), ("objective_vector", .tuple R.objective)]

def StatedProgram.toValue (P : StatedProgram) : Value :=
  let Q := P.parts
  .ofFields "NumericProgram"
    [("dim", Q.dim), ("constant_offset", .ofFloat Q.offset), ("fixed_matrix", Q.fixed.toValue),
      ("constraint_matrices", .tuple (Q.constraints.map StatedMatrix.toValue)), ("bounds", .ofDoubles [Q.bounds.length] Q.bounds)]

/-- the label of a status in the list of statuses -/
def Status.label (s : Status) : String :=
  "SolutionStatus." ++ match s with
    | .optimal => "OPTIMAL"
    | .nearOptimal => "NEAR_OPTIMAL"
    | .dualInfeasible => "DUAL_INFEASIBLE_CERTIFICATE"
    | .primalInfeasible => "PRIMAL_INFEASIBLE_CERTIFICATE"
    | .nearDualInfeasible => "NEAR_DUAL_INFEASIBLE_CERTIFICATE"
    | .nearPrimalInfeasible => "NEAR_PRIMAL_INFEASIBLE_CERTIFICATE"
    | .unknown => "UNKNOWN"
    | .other => "OTHER"

def Status.toValue (s : Status) : Value := .member s.label s.name

/-- a solution by its fields; one without an optimum can be a key -/
def Solution.toValue : Solution Float → Value
  | .optimum o => .ofFields "OptimumFound"
    [("objective_value", .ofFloat o.objective), ("primal_matrix", .ofTensor (.ofGrid o.primal)),
      ("dual_vector", .ofTensor (.ofVector o.dual)), ("primal_objective", (o.reported.map Value.ofFloat).getD .null)]
  | .failure r => .record "Failure" true ["reason"] [.text r.text]

def Settings.toValue (s : Settings) : Value :=
  .ofFields "MosekSettings" [("tol_rel_gap", s.tolerance.given), ("log_solver_output", s.logging)]

def RawAnswer.toValue (a : RawAnswer) : Value :=
  match a.arrays with
  | some (x, y, p) => .tuple [a.status.toValue, .ofTensor x, .ofTensor y, .ofFloat p]
  | none => .tuple [a.status.toValue, .null, .null, .null]

end MomentProgram
