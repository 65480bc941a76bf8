/-
From a moment relaxation to its program.

The fixed matrix is made of the cells of the identity, constraint matrix `i` of minus the cells of monomial `i`. Bound `i` is
the coefficient of monomial `i` as a real number and the offset that of the identity; the identity is converted last. The dual
of the program is then the relaxation itself.
-/
import MomentProgram.Log
import MomentProgram.Program
import MomentProgram.Relaxation

namespace MomentProgram

namespace Surface

variable {α κ : Type} [Scalar α]

/-- the coefficients in the order of their conversion: the identity last -/
def conversionOrder (objective : List κ) : List κ := objective.drop 1 ++ objective.take 1

/-- the coefficients of monomials `1, …, m` as bounds -/
def boundsOf (toReal : κ → Outcome α) (objective : List κ) : Outcome (List α) := (objective.drop 1).mapM toReal

def offsetOf (toReal : κ → Outcome α) (objective : List κ) : Outcome α :=
  match objective with
  | c :: _ => toReal c
  | [] => .error .missingEntry

/-- what a surface has to offer for a program besides its size -/
structure Parts (α : Type) where
  fixed : Option (SymMatrix α)
  constraints : List (Option (SymMatrix α))
  bounds : List α
  offset : α

/-- the parts of a surface with given coefficients, each found after the one before; a generator goes through the constraint matrices -/
def partsOf (toReal : κ → Outcome α) (S : Surface α κ) (objective : List κ) : Outcome (Parts α) := do
  let fixed ← S.fixed
  let constraints ← ((List.range (objective.length - 1)).mapM fun i => S.constraint (i + 1)).mapError Fault.outOfGenerator
  let bounds ← boundsOf toReal objective
  let offset ← offsetOf toReal objective
  return ⟨fixed, constraints, bounds, offset⟩

def encode (toReal : κ → Outcome α) (S : Surface α κ) : Outcome (Program α) :=
  if S.identityFirst = false then .error .identityMissing
  else match S.objective with
    | none => .error .notIterable
    | some objective =>
      if (objective.length : Int) ≠ S.monomials then .error (.objectiveEntries objective.length (toString S.monomials))
      else (S.partsOf toReal objective).bind fun p =>
        Program.ofParts S.size (.ok p.offset) p.fixed (.ok p.constraints) (.ok p.bounds)

end Surface

def encodedText (dim : String) (constraints nnz : Nat) : String :=
  s!"Encoded relaxation: dim={dim}, constraints={constraints}, nonzeros={nnz}"

def Program.encodedRecord {α : Type} [Scalar α] (P : Program α) : Record where
  level := .debug
  origin := .encoding
  text := encodedText (toString P.dim) P.numConstraints P.nnz

end MomentProgram
