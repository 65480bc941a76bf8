/-
Sessions with the solver.

A session opens an environment and a task in it, sets the tolerance, attaches the log if the settings say so, does its work and
closes both again, whatever happens in between. It is a generator around its work: how the work ended is passed on as it is, and the
refusals of everything around it are those that come out of a generator. `solveRaw` hands a program over, optimises and reads the
answer, `solve` gives its meaning, and `writeData` writes the program to a file instead of optimising.
-/
import MomentProgram.Number.Notation
import MomentProgram.Solution
import MomentProgram.Solver.Activity
import MomentProgram.Solver.Settings
import MomentProgram.Text.Path

namespace MomentProgram

structure Instance where
  program : StatedProgram
  settings : Settings

/-- what was read of an answer: the arrays come with the optimal statuses alone -/
structure RawAnswer where
  status : Status
  arrays : Option (Tensor Float × Tensor Float × Float)

namespace Instance

open Activity

variable (S : Solver) (offered : Option Codes)

/-- sets a task up: the tolerance, and the log if the settings say so -/
def setUp (I : Instance) (t : Tolerance) : Activity Unit := do
  record .debug ("Opened MOSEK task (tol_rel_gap=" ++ Style.tolerance.render t.double ++ ")")
  call S (.setTolerance t.given)
  if ← lift I.settings.logging.truthy then call S .attachLog

/-- what goes on around some work: everything is opened before it and closed behind it -/
def around {β : Type} (I : Instance) (t : Tolerance) (work : Activity β) : Activity (Outcome β) := do
  let _ ← requirePackage offered
  calls S [.makeEnv, .enterEnv]
  let out ← closing S .closeEnv do
    calls S [.makeTask, .enterTask]
    closing S .closeTask do
      I.setUp S t
      attempt work
  if out.isOk then record .debug "Released MOSEK task"
  return out

/-- a session with a tolerance around some work -/
def session {β : Type} (I : Instance) (t : Tolerance) (work : Activity β) : Activity β := generator (I.around S offered t work)

/-- the matrices of the rows, from a row on; the fixed matrix came first -/
def handOverRows (dim : Value) : Nat → List StatedMatrix → Activity Unit
  | _, [] => pure ()
  | i, A :: rest => do
    let a ← appendMatrix S (i + 1) dim A.triples
    call S (.putRow i a Scalar.one)
    handOverRows dim (i + 1) rest

/-- hands a program over: counts, offset, sense and the fixed matrix, then the bounds, then the constraint matrices -/
def handOver (P : LooseProgram) : Activity Unit := do
  calls S [.appendRows P.constraints.length, .appendBlock P.dim, .putOffset P.offset, .minimise]
  let c ← appendMatrix S 0 P.dim P.fixed.triples
  call S (.putObjective c Scalar.one)
  calls S (boundCalls 0 P.bounds)
  handOverRows S P.dim 0 P.constraints

def populate (I : Instance) : Activity Unit := do
  let _ ← requirePackage offered
  handOver S I.program.parts

/-- a message of the solver as a record, without the line ends behind it; an empty one leaves none -/
def messageText? (message : String) : Option String :=
  let cs := (message.toList.reverse.dropWhile (· == '\n')).reverse
  if cs.isEmpty then none else some ("[mosek] " ++ String.ofList cs)

/-- optimises; the messages arrive if the log is attached -/
def optimise (I : Instance) : Activity Unit := do
  call S .optimise
  if ← lift I.settings.logging.truthy then recordAll .debug (S.messages.filterMap messageText?)

def readArrays : Activity (Tensor Float × Tensor Float × Float) := do
  call S .askPrimal
  let x ← lift (S.primal.bind Value.toTensor)
  call S .askDual
  let y ← lift (S.dual.bind Value.toTensor)
  call S .askObjective
  let p ← lift (S.objective.bind Value.toFloat)
  return (x, y, p)

/-- the exact quotient that a reading of the clock is -/
def quotient? : Number → Option (Int × Nat)
  | .bool b => some (if b then 1 else 0, 1)
  | .int n => some (n, 1)
  | .ratio num den => some (num, den)
  | _ => none

/-- the difference of two readings of the clock: exact quotients are subtracted before they are rounded -/
def difference (later earlier : Number) : Outcome Float :=
  match quotient? later, quotient? earlier with
  | some (a, b), some (c, d) => (Number.ratio (a * d - c * b) (b * d)).toFloat
  | _, _ => do
    let x ← later.toFloat
    let y ← earlier.toFloat
    return x - y

/-- the milliseconds between two readings of the clock; decimals do not mix with them -/
def milliseconds (earlier later : Value) : Outcome Float :=
  match earlier, later with
  | .number (.decimal _) _, _ => .error .notNumeric
  | _, .number (.decimal _) _ => .error .notNumeric
  | .number m _, .number n _ => (difference n m).map (· * 1000.0)
  | _, _ => .error .notNumeric

def answer (I : Instance) (codes : Codes) : Activity RawAnswer := do
  I.optimise S
  let elapsed ← lift (milliseconds S.started S.finished)
  calls S [.summarise, .askStatus]
  let status ← lift (S.code.bind codes.statusOf)
  record .info ("MOSEK finished in " ++ fixedPlaces 1 elapsed ++ " ms with status " ++ status.name)
  if status.isOptimal then
    let arrays ← readArrays S
    return ⟨status, some arrays⟩
  else return ⟨status, none⟩

/-- hands the program over, optimises and reads the answer, in one session -/
def solveRaw (I : Instance) (override : Option Value) : Activity RawAnswer := do
  let codes ← requirePackage offered
  let t ← lift (I.settings.resolve override)
  I.session S offered t do
    I.populate S offered
    I.answer S codes

def decoded (I : Instance) (a : RawAnswer) : Outcome (Solution Float) :=
  match a.arrays with
  | some (x, y, p) => I.program.decode a.status (some (.ok x.toList)) (some (.ok y.toList)) (some (.ok p))
  | none => I.program.decode a.status none none none

def optimumText (o : Optimum Float) : String :=
  "Objective from duals " ++ Style.objective.render o.objective ++ ", reported primal objective " ++
    (match o.reported with
      | some p => Style.objective.render p
      | none => "none")

/-- solves the program: the meaning of the answer, found after the session is closed -/
def solve (I : Instance) (override : Option Value) : Activity (Solution Float) := do
  let a ← I.solveRaw S offered override
  let s ← lift (I.decoded a)
  match s with
  | .optimum o => record .debug (optimumText o)
  | .failure _ => pure ()
  return s

/-- the written form of the path that a value is: a text, the label of one of a closed list, or a path already written -/
def writtenPath : Value → Outcome String
  | .text s => .ok (pathText s)
  | .member label _ => .ok (pathText label)
  | .path s => .ok s
  | _ => .error .notAPath

/-- writes the program to a file: the written form of its path -/
def writeData (I : Instance) (path : Value) (override : Option Value) : Activity String := do
  let t ← lift (I.settings.resolve override)
  let text ← lift (writtenPath path)
  I.session S offered t do
    I.populate S offered
    call S (.write text)
  record .info ("Wrote MOSEK problem to " ++ text)
  return text

end Instance

end MomentProgram
