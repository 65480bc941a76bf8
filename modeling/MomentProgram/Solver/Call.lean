/-
The calls made on the solver, and the calls that describe a program to it.

A `Call` holds what differs from one call of its sort to another. `Call.name` and `Call.arguments` give the call as the solver gets it,
with the arguments that never differ: the empty task, the parameter of the tolerance, the first block, the sense, the key of a bound, the
stream and the sort of solution that is asked for.

`population` lists the calls that hand a program over: one row per constraint, one matrix block, the offset, and each matrix
once, put by its handle into the objective or into its row. The solver gives a handle to each matrix in the order of arrival. The
dimension is handed over as it was stated.
-/
import MomentProgram.Program.Stated

namespace MomentProgram

inductive Call (α : Type) where
  /-- makes an environment, without arguments -/
  | makeEnv
  | enterEnv
  /-- makes a task of no rows and no variables, which grow later -/
  | makeTask
  | enterTask
  /-- the relative gap at which the interior-point optimiser for conic problems may stop -/
  | setTolerance (given : Value)
  /-- sends the messages of the log stream to the log of a session -/
  | attachLog
  | appendRows (count : Nat)
  /-- one semidefinite matrix variable of a dimension: the only block, with number zero -/
  | appendBlock (dim : Value)
  | putOffset (offset : α)
  /-- the sense of the objective, which is to minimise it -/
  | minimise
  | appendMatrix (dim : Value) (triples : List (Triple α))
  /-- one matrix with its weight into the objective of block zero -/
  | putObjective (handle : Int) (weight : α)
  /-- lower and upper bound of a row whose key says that it is fixed -/
  | putBound (row : Nat) (lower upper : α)
  /-- one matrix with its weight into a row of block zero -/
  | putRow (row : Nat) (handle : Int) (weight : α)
  | optimise
  /-- writes a summary to the stream of messages -/
  | summarise
  /-- asks for the status of the interior-point solution -/
  | askStatus
  /-- asks for the primal matrix of block zero in the interior-point solution -/
  | askPrimal
  /-- asks for the multipliers of the interior-point solution -/
  | askDual
  /-- asks for the primal objective of the interior-point solution -/
  | askObjective
  /-- writes the task to a file, whose kind follows from the end of its path -/
  | write (path : String)
  /-- closing, told the family of the refusal that passes through -/
  | closeTask (passing : Option Kind)
  | closeEnv (passing : Option Kind)
  deriving Repr

/-- an argument of a call -/
inductive Argument (α : Type) where
  | whole (n : Int)
  | wholes (ns : List Int)
  | real (x : α)
  | reals (xs : List α)
  | value (v : Value)
  | values (vs : List Value)
  /-- a constant of the solver package, by its name -/
  | constant (name : String)
  | text (s : String)
  | passing (k : Option Kind)

namespace Call

variable {α : Type}

/-- the function of the solver that a call is made on -/
def name : Call α → String
  | makeEnv => "Env"
  | enterEnv => "Env.enter"
  | makeTask => "Task"
  | enterTask => "Task.enter"
  | setTolerance _ => "putdouparam"
  | attachLog => "set_Stream"
  | appendRows _ => "appendcons"
  | appendBlock _ => "appendbarvars"
  | putOffset _ => "putcfix"
  | minimise => "putobjsense"
  | appendMatrix _ _ => "appendsparsesymmat"
  | putObjective _ _ => "putbarcj"
  | putBound _ _ _ => "putconbound"
  | putRow _ _ _ => "putbaraij"
  | optimise => "optimize"
  | summarise => "solutionsummary"
  | askStatus => "getsolsta"
  | askPrimal => "getbarxj"
  | askDual => "gety"
  | askObjective => "getprimalobj"
  | write _ => "writedata"
  | closeTask _ => "Task.exit"
  | closeEnv _ => "Env.exit"

/-- the number of the only block -/
def block : Argument α := .whole 0

/-- the solution of the interior-point optimiser -/
def solution : Argument α := .constant "itr"

/-- the arguments of a call, in order -/
def arguments : Call α → List (Argument α)
  | makeEnv | enterEnv | enterTask | optimise => []
  | makeTask => [.whole 0, .whole 0]
  | setTolerance given => [.constant "intpnt_co_tol_rel_gap", .value given]
  | attachLog => [.constant "log"]
  | appendRows count => [.whole count]
  | appendBlock dim => [.values [dim]]
  | putOffset offset => [.real offset]
  | minimise => [.constant "minimize"]
  | appendMatrix dim triples =>
    [.value dim, .wholes (triples.map fun t => (t.row : Int)), .wholes (triples.map fun t => (t.col : Int)), .reals (triples.map (·.value))]
  | putObjective handle weight => [block, .wholes [handle], .reals [weight]]
  | putBound row lower upper => [.whole row, .constant "fx", .real lower, .real upper]
  | putRow row handle weight => [.whole row, block, .wholes [handle], .reals [weight]]
  | summarise => [.constant "msg"]
  | askStatus | askDual | askObjective => [solution]
  | askPrimal => [solution, block]
  | write path => [.text path]
  | closeTask passing | closeEnv passing => [.passing passing]

end Call

section Population

variable {α : Type} [Scalar α]

/-- the calls before the rows: counts, offset, sense and the fixed matrix -/
def preamble (handle : Nat → Int) (dim : Value) (rows : Nat) (offset : α) (fixed : List (Triple α)) : List (Call α) :=
  [.appendRows rows, .appendBlock dim, .putOffset offset, .minimise, .appendMatrix dim fixed, .putObjective (handle 0) Scalar.one]

/-- every row with its bound, from a row on -/
def boundCalls : Nat → List α → List (Call α)
  | _, [] => []
  | i, b :: bs => .putBound i b b :: boundCalls (i + 1) bs

/-- every row with its matrix, from a row on; the fixed matrix came first -/
def rowCalls (handle : Nat → Int) (dim : Value) : Nat → List (List (Triple α)) → List (Call α)
  | _, [] => []
  | i, ts :: rest => .appendMatrix dim ts :: .putRow i (handle (i + 1)) Scalar.one :: rowCalls handle dim (i + 1) rest

/-- the calls that hand over a program of given parts -/
def populationOf (handle : Nat → Int) (dim : Value) (offset : α) (fixed : List (Triple α)) (constraints : List (List (Triple α)))
    (bounds : List α) : List (Call α) :=
  preamble handle dim constraints.length offset fixed ++ boundCalls 0 bounds ++ rowCalls handle dim 0 constraints

end Population

/-- the calls that hand a program over -/
def Program.population {α : Type} [Scalar α] (handle : Nat → Int) (P : Program α) : List (Call α) :=
  populationOf handle (.ofInt P.dim) P.offset P.fixed.triples (P.constraints.map SymMatrix.triples) P.bounds

/-- the calls that hand a program over, its dimension as stated -/
def StatedProgram.population (handle : Nat → Int) : StatedProgram → List (Call Float)
  | .plain P => P.population handle
  | .loose P => populationOf handle P.dim P.offset P.fixed.triples (P.constraints.map StatedMatrix.triples) P.bounds

end MomentProgram
