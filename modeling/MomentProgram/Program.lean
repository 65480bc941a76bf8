/-
Semidefinite programs with numeric data.

    minimise    offset + C • X
    subject to  A_i • X = b_i,  i = 1, …, m,   X positive semidefinite

A `Program` holds the dimension, the offset, the fixed matrix C, the constraint matrices A_i and the bounds b_i. All matrices
have the dimension of the program, every bound belongs to one constraint matrix, and bounds and offset are finite: that is part
of the type. `ofParts` builds one from parts that may each be refused, and reports the first refusal in a fixed order.
-/
import MomentProgram.Symmetric.Packed
import MomentProgram.Symmetric.Inner

namespace MomentProgram

/-- a semidefinite program in one matrix variable -/
structure Program (α : Type) [Scalar α] where
  dim : Nat
  offset : α
  fixed : SymMatrix α
  constraints : List (SymMatrix α)
  bounds : List α
  dim_pos : 0 < dim
  fixed_dim : fixed.dim = dim
  constraint_dim : ∀ A ∈ constraints, A.dim = dim
  length_eq : bounds.length = constraints.length
  bounds_finite : ∀ b ∈ bounds, Scalar.isFinite b = true
  offset_finite : Scalar.isFinite offset = true

namespace Program

variable {α : Type} [Scalar α]

def numConstraints (P : Program α) : Nat := P.constraints.length

/-- the length of the packed lower triangle of the matrix variable -/
def packedLength (P : Program α) : Int := MomentProgram.packedLength P.dim

/-- how many triples the matrices hold together -/
def nnz (P : Program α) : Nat := P.fixed.nnz + (P.constraints.map SymMatrix.nnz).foldr (· + ·) 0

/-- a part that must be a matrix of the dimension; the fixed matrix has no position -/
def checkedMatrix (dim : Int) (position : Option Nat) (part : Option (SymMatrix α)) :
    Outcome { A : SymMatrix α // (A.dim : Int) = dim } :=
  match part with
  | none => .error .notAMatrix
  | some A => if h : (A.dim : Int) = dim then .ok ⟨A, h⟩ else .error (.matrixDim position (toString A.dim) (toString dim))

def checkedMatrices (dim : Int) : Nat → (parts : List (Option (SymMatrix α))) →
    Outcome { As : List (SymMatrix α) // As.length = parts.length ∧ ∀ A ∈ As, (A.dim : Int) = dim }
  | _, [] => .ok ⟨[], by simp⟩
  | i, part :: parts => match checkedMatrix dim (some i) part with
    | .error e => .error e
    | .ok A => match checkedMatrices dim (i + 1) parts with
      | .error e => .error e
      | .ok As => .ok ⟨A.1 :: As.1, by simp [As.2.1], by simpa [A.2] using As.2.2⟩

/-- the program of given parts, none of which is yet known to exist; `none` among the matrices is something that is no matrix -/
def ofParts (dim : Int) (offset : Outcome α) (fixed : Option (SymMatrix α))
    (constraints : Outcome (List (Option (SymMatrix α)))) (bounds : Outcome (List α)) : Outcome (Program α) :=
  if hd : dim ≤ 0 then .error .dimNotPositive
  else match constraints with
    | .error e => .error e
    | .ok parts => match bounds with
      | .error e => .error e
      | .ok bs =>
        if hb : bs.length = parts.length then
          match checkedMatrix dim none fixed with
          | .error e => .error e
          | .ok C => match checkedMatrices dim 0 parts with
            | .error e => .error e
            | .ok As =>
              if hf : ∀ b ∈ bs, Scalar.isFinite b = true then
                match offset with
                | .error e => .error e
                | .ok c =>
                  if hc : Scalar.isFinite c = true then
                    .ok ⟨dim.toNat, c, C.1, As.1, bs, by omega, by have := C.2; omega,
                      fun A hA => by have := As.2.2 A hA; omega, by rw [hb, As.2.1], hf, hc⟩
                  else .error .dataNotFinite
              else .error .dataNotFinite
        else .error (.boundCount bs.length parts.length)

end Program

end MomentProgram
