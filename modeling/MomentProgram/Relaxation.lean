/-
Moment relaxations, and what an encoder needs of one.

A `Relaxation` is a Gram matrix with one objective coefficient per monomial. `Surface` is the part of a relaxation that the
encoder looks at: what a Gram matrix reports about itself, the matrices it gives for the monomials, and the coefficients. A
relaxation from elsewhere may report anything, so a surface promises nothing.
-/
import MomentProgram.Gram

namespace MomentProgram

/-- a Gram matrix with one objective coefficient per monomial -/
structure Relaxation (α κ : Type) [BEq α] [Scalar α] where
  size : Nat
  gram : Gram size α
  objective : List κ
  length_eq : objective.length = monomialCount gram.tags

namespace Relaxation

variable {α κ : Type} [BEq α] [Scalar α]

/-- the relaxation of a Gram matrix and coefficients; `none` are coefficients that are no sequence -/
def ofParts {d : Nat} (g : Gram d α) (objective : Option (List κ)) : Outcome (Relaxation α κ) :=
  match objective with
  | none => .error .notIterable
  | some l =>
    if h : l.length = monomialCount g.tags then .ok ⟨d, g, l, h⟩
    else .error (.objectiveLength l.length (monomialCount g.tags))

end Relaxation

/-- what a relaxation shows to an encoder -/
structure Surface (α κ : Type) where
  identityFirst : Bool
  /-- the number of monomials it reports -/
  monomials : Int
  /-- the size it reports -/
  size : Int
  /-- the cells of the identity, if they make a matrix -/
  fixed : Outcome (Option (SymMatrix α))
  /-- minus the cells of a monomial, if they make a matrix -/
  constraint : Nat → Outcome (Option (SymMatrix α))
  /-- the coefficients; `none` if they are no sequence -/
  objective : Option (List κ)

namespace Surface

variable {α κ : Type} [BEq α] [Mul α] [Neg α] [Scalar α]

/-- the scale of the cells in constraint matrices -/
def constraintScale : α := -Scalar.one

/-- what a Gram matrix shows, with given coefficients -/
def ofGram {d : Nat} (g : Gram d α) (objective : Option (List κ)) : Surface α κ where
  identityFirst := g.identityFirst
  monomials := g.monomials
  size := d
  fixed := (g.lowerTriangular 0 Scalar.one).map some
  constraint i := (g.lowerTriangular i constraintScale).map some
  objective := objective

end Surface

def Relaxation.surface {α κ : Type} [BEq α] [Mul α] [Neg α] [Scalar α] (R : Relaxation α κ) : Surface α κ :=
  .ofGram R.gram (some R.objective)

end MomentProgram
