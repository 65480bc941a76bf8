/-
Computations that use the solver.

An `Activity` runs on a `History`: what is known about the solver package, the calls made so far and the records left so far.
It ends with a result or a refusal, and either way with a longer history. `call` makes one call, which is part of the history
even if the solver refuses it.

A generator goes on while something else is at work, and learns how that ended before it closes. `attempt` is the work seen from there:
how it ended is a result. `closing` runs an activity and then makes a closing call, whatever the outcome; a refusal of the closing call
takes the place of the outcome. `generator` is what is seen from outside: the generator's own refusals come out as generators let them.
-/
import MomentProgram.Log
import MomentProgram.Solver.Call
import MomentProgram.Solver.Package

namespace MomentProgram

/-- the traces that activities leave -/
structure History where
  linkage : Linkage
  calls : List (Call Float)
  records : List Record

/-- how a solver behaves; what it reports may turn out to be missing only when it is asked for. Closing calls never take a refusal back. -/
structure Solver where
  /-- whether it refuses a call after the given ones -/
  refuses : List (Call Float) → Call Float → Option Fault
  /-- the handle of the matrix that arrives as number `k` -/
  handle : Nat → Int
  /-- the status code that it reports -/
  code : Outcome Key
  /-- the packed primal matrix that it reports -/
  primal : Outcome Value
  /-- the multipliers that it reports -/
  dual : Outcome Value
  /-- the primal objective that it reports -/
  objective : Outcome Value
  /-- the messages it writes while it optimises -/
  messages : List String
  /-- the clock before and after optimising, in seconds -/
  started : Value
  finished : Value

/-- a computation that may make calls and leave records -/
def Activity (β : Type) := History → Outcome β × History

namespace Activity

variable {β γ : Type}

instance : Monad Activity where
  pure b := fun h => (.ok b, h)
  bind a f := fun h => match a h with
    | (.ok b, h') => f b h'
    | (.error e, h') => (.error e, h')

/-- a result or a refusal, without any trace -/
def lift (r : Outcome β) : Activity β := fun h => (r, h)

def call (S : Solver) (c : Call Float) : Activity Unit := fun h =>
  ((match S.refuses h.calls c with
    | some e => .error e
    | none => .ok ()), { h with calls := h.calls ++ [c] })

/-- calls one after the other, up to the first that is refused -/
def calls (S : Solver) : List (Call Float) → Activity Unit
  | [] => pure ()
  | c :: cs => do call S c; calls S cs

def record (level : Level) (text : String) : Activity Unit := fun h =>
  (.ok (), { h with records := h.records ++ [⟨level, .session, text⟩] })

def recordAll (level : Level) : List String → Activity Unit
  | [] => pure ()
  | t :: ts => do record level t; recordAll level ts

/-- the codes of the package, where an installation offers its codes or nothing -/
def requirePackage (offered : Option Codes) : Activity Codes := fun h =>
  match h.linkage.resolve offered with
  | .loaded codes => (.ok codes, { h with linkage := .loaded codes })
  | l => (.error .packageMissing, { h with linkage := l })

/-- hands over the matrix that arrives as number `k`; the solver answers with its handle -/
def appendMatrix (S : Solver) (k : Nat) (dim : Value) (triples : List (Triple Float)) : Activity Int := do
  call S (.appendMatrix dim triples)
  return S.handle k

/-- an activity whose end, good or bad, is a result -/
def attempt (a : Activity β) : Activity (Outcome β) := fun h => (.ok (a h).1, (a h).2)

/-- the family of the refusal that passes through: that of an activity around some work, or that of the work -/
def passing : Outcome (Outcome β) → Option Kind
  | .ok (.ok _) => none
  | .ok (.error e) => some e.kind
  | .error e => some e.kind

/-- an activity around some work, and then a closing call that is told the refusal passing through -/
def closing (S : Solver) (close : Option Kind → Call Float) (body : Activity (Outcome β)) : Activity (Outcome β) := fun h =>
  match body h with
  | (out, h') => match call S (close (passing out)) h' with
    | (.ok (), last) => (out, last)
    | (.error e, last) => (.error e, last)

/-- a generator around some work, seen from outside: its own refusal as it comes out of a generator, and else the end of the work -/
def generator (a : Activity (Outcome β)) : Activity β := fun h =>
  match a h with
  | (.ok out, h') => (out, h')
  | (.error e, h') => (.error e.outOfGenerator, h')

end Activity

end MomentProgram
