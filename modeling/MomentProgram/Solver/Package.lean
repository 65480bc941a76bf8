/-
The solver package and the codes it reports.

A package names its status codes; which names it has depends on its version. `statusOf` finds the status of a reported code:
a named code stands for its status, of two names with the same code the later one counts, and any other code is `other`.
-/
import MomentProgram.Solution
import MomentProgram.Value.Key

namespace MomentProgram

/-- the status codes of a solver package, by name -/
abbrev Codes := List (String × Key)

namespace Codes

/-- the code of a name; an absent one may also be given as null -/
def code? (codes : Codes) (name : String) : Option Key :=
  match codes.lookup name with
  | some ⟨.null, _⟩ => none
  | some k => some k
  | none => none

/-- the codes of the named statuses, in the order of the statuses -/
def table (codes : Codes) : List (Key × Status) :=
  (Status.all.filter (· != .other)).filterMap fun s => (codes.code? s.name).map fun v => (v, s)

def statusOf (codes : Codes) (code : Key) : Outcome Status :=
  let t := codes.table
  if !(t.all fun p => p.1.value.isKey) || !code.value.isKey then .error .notAKey
  else .ok (((t.reverse.find? fun p => p.1.same code).map (·.2)).getD .other)

end Codes

/-- what is known about the solver package: it is looked for once, and the outcome stays -/
inductive Linkage where
  | unresolved
  | missing
  | loaded (codes : Codes)
  deriving Repr

/-- looking for the package, where an installation offers its codes or nothing -/
def Linkage.resolve (offered : Option Codes) : Linkage → Linkage
  | .unresolved => match offered with
    | some codes => .loaded codes
    | none => .missing
  | l => l

end MomentProgram
