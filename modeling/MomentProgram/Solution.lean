/-
What a solver's answer means.

A `Status` says how a run of the solver ended. `decode` turns a status and the arrays that came with it into an `Optimum`, with
the objective recomputed from the multipliers, or into the reason why there is none. The arrays are looked at only for the two
optimal statuses.
-/
import MomentProgram.Program

namespace MomentProgram

/-- how a run of the solver ended -/
inductive Status where
  | optimal
  | nearOptimal
  | dualInfeasible
  | primalInfeasible
  | nearDualInfeasible
  | nearPrimalInfeasible
  | unknown
  | other
  deriving DecidableEq, Repr

namespace Status

/-- the statuses in their order of precedence -/
def all : List Status :=
  [optimal, nearOptimal, dualInfeasible, primalInfeasible, nearDualInfeasible, nearPrimalInfeasible, unknown, other]

def name : Status → String
  | optimal => "optimal"
  | nearOptimal => "near_optimal"
  | dualInfeasible => "dual_infeas_cer"
  | primalInfeasible => "prim_infeas_cer"
  | nearDualInfeasible => "near_dual_infeas_cer"
  | nearPrimalInfeasible => "near_prim_infeas_cer"
  | unknown => "unknown"
  | other => "other"

def ofName? (s : String) : Option Status := all.find? fun t => t.name == s

/-- the statuses that come with arrays -/
def isOptimal : Status → Bool
  | optimal | nearOptimal => true
  | _ => false

end Status

/-- why there is no optimum -/
inductive Reason where
  | infeasible
  | unknown
  | other
  deriving DecidableEq, Repr

def Reason.text : Reason → String
  | infeasible => "Primal or dual infeasibility certificate found."
  | unknown => "The status of the solution could not be determined."
  | other => "Other solution status."

def Status.reason : Status → Reason
  | .dualInfeasible | .primalInfeasible | .nearDualInfeasible | .nearPrimalInfeasible => .infeasible
  | .unknown => .unknown
  | _ => .other

/-- an optimal or nearly optimal solution -/
structure Optimum (α : Type) where
  /-- offset plus bounds times multipliers -/
  objective : α
  size : Nat
  primal : Grid size α
  /-- one, followed by the multipliers -/
  dual : List α
  /-- the primal objective that the solver reports -/
  reported : Option α

/-- the meaning of a solver's answer -/
inductive Solution (α : Type) where
  | optimum (o : Optimum α)
  | failure (r : Reason)

section Optimum

variable {α : Type} [Add α] [Mul α] [Scalar α]

/-- an offset and then bound times multiplier, one after the other -/
def foldObjective (offset : α) (bounds y : List α) : α := (y.zip bounds).foldl (fun acc p => acc + p.1 * p.2) offset

/-- the optimum of an unpacked primal matrix and multipliers, of which there have to be as many as bounds -/
def assembleOptimum (offset : α) (bounds : List α) (primal : Outcome ((d : Nat) × Grid d α)) (duals : Outcome (List α))
    (reported : Option (Outcome α)) : Outcome (Optimum α) := do
  let X ← primal
  let y ← duals
  if y.length ≠ bounds.length then throw (.multiplierCount bounds.length y.length)
  let p ← match reported with
    | none => pure none
    | some p => p.map some
  return ⟨foldObjective offset bounds y, X.1, X.2, Scalar.one :: y, p⟩

end Optimum

/-- the solution of a status: the optimum of its arrays if it is an optimal one, or else a reason -/
def Status.solution {α β γ : Type} (status : Status) (packed : Option β) (duals : Option γ)
    (optimum : β → γ → Outcome (Optimum α)) : Outcome (Solution α) :=
  if status.isOptimal then
    match packed, duals with
    | some packed, some duals => (optimum packed duals).map .optimum
    | _, _ => .error .arraysRequired
  else .ok (.failure status.reason)

namespace Program

variable {α : Type} [Add α] [Mul α] [Scalar α]

def optimumOf (P : Program α) (packed duals : Outcome (List α)) (reported : Option (Outcome α)) : Outcome (Optimum α) :=
  assembleOptimum P.offset P.bounds (packed.bind (unpack (P.dim : Int))) duals reported

/-- the meaning of a status and of the arrays that came with it, each absent or possibly without a reading -/
def decode (P : Program α) (status : Status) (packed duals : Option (Outcome (List α))) (reported : Option (Outcome α)) :
    Outcome (Solution α) :=
  status.solution packed duals fun packed duals => P.optimumOf packed duals reported

end Program

end MomentProgram
