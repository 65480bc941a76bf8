/-
Programs whose triples stand in another order.

The checks of a program read its matrices cell by cell or in the order of the full matrix, never in the order of the triples. A program
with the triples of another one in any order therefore gives the same results, as doubles with all their roundings: each matrix has
the same cells in the same order (`SymMatrix.Reorders`), and a fold over the constraints meets equal matrices one by one.

- `canonical_full_form`: what the full form of a matrix holds, and that neither it nor anything computed from it depends on the order
  of the triples.
- `canonical_full_form_swapped`: a matrix and a program with two triples swapped.
-/
import Mathlib
import MomentProgram.Proofs.Program.Decoded
import MomentProgram.Proofs.Symmetric.Canonical

namespace MomentProgram

/-- steps that have equal results one by one have equal results together -/
theorem Outcome.mapM_congr {α β : Type} {f : α → Outcome β} {l l' : List α} (h : List.Forall₂ (fun a b => f a = f b) l l') :
    l.mapM f = l'.mapM f := by
  induction h with
  | nil => rfl
  | cons hab _ ih => rw [List.mapM_cons, List.mapM_cons, hab, ih]

namespace Program

variable {α : Type} [Scalar α]

/-- a program whose matrices have the triples of those of another one, in any order -/
structure Reorders (Q P : Program α) : Prop where
  dim_eq : Q.dim = P.dim
  offset_eq : Q.offset = P.offset
  bounds_eq : Q.bounds = P.bounds
  fixed : Q.fixed.Reorders P.fixed
  constraints : List.Forall₂ SymMatrix.Reorders Q.constraints P.constraints

namespace Reorders

variable [Mul α] {P Q : Program α} (h : Q.Reorders P)

include h

theorem applyConstraints_eq [Add α] (X : Tensor α) : Q.applyConstraints X = P.applyConstraints X := by
  have hconstraints : ∀ S : Tensor α, (Q.constraints.mapM fun A => A.innerAlong S (symmetricSteps X.shape)) =
      P.constraints.mapM fun A => A.innerAlong S (symmetricSteps X.shape) := by
    intro S
    exact Outcome.mapM_congr (h.constraints.imp fun B A hBA => hBA.innerAlong_eq S _)
  simp only [applyConstraints, hconstraints]

theorem primalObjective_eq [Add α] (X : Tensor α) : Q.primalObjective X = P.primalObjective X := by
  simp only [primalObjective, h.fixed.innerAlong_eq, h.offset_eq]

theorem momentCell_eq [Sub α] (y : List α) (r c : Nat) : Q.momentCell y r c = P.momentCell y r c :=
  momentCell_congr (h.fixed.cell_eq r c) (h.constraints.imp fun _ _ hBA => hBA.cell_eq r c) y

theorem momentMatrix_eq [Sub α] (y : List α) :
    (Q.momentMatrix y).map (⟨Q.dim, ·⟩) = ((P.momentMatrix y).map (⟨P.dim, ·⟩) : Outcome ((d : Nat) × Grid d α)) := by
  have hcount : Q.numConstraints = P.numConstraints := h.constraints.length_eq
  unfold momentMatrix
  rw [hcount]
  split
  case isTrue => rfl
  case isFalse =>
    simp only [h.momentCell_eq]
    exact congrArg Except.ok (sigma_ofFn h.dim_eq (P.momentCell y))

end Reorders

end Program

/-- **The full form of a matrix is canonical.** The compressed rows of every matrix represent it: its triples and their mirrors with the
stored bits, columns ascending in every row, the rows delimited by their starts. The dense form has the stored numbers in these cells, a
zero of either sign as zero, has zero elsewhere, and is symmetric. Every order of the triples makes a matrix as well, with the same
compressed and dense forms and the same inner product with every array; and a program whose matrices hold their triples in another
order has the same moment matrices, constraint values and primal objectives. All equalities are equalities of doubles. -/
theorem canonical_full_form :
    (∀ A : SymMatrix Float,
      A.compressed.Represents A ∧
      (∀ (r c : Fin A.dim) (v : Float), ⟨r.val, c.val, v⟩ ∈ A.compressed.entries →
        (A.dense A.dim).get r c = if v == 0.0 then 0.0 else v) ∧
      (∀ r c : Fin A.dim, (∀ v, ⟨r.val, c.val, v⟩ ∉ A.compressed.entries) → (A.dense A.dim).get r c = 0.0) ∧
      (∀ r c : Fin A.dim, (A.dense A.dim).get r c = (A.dense A.dim).get c r) ∧
      ∀ ts : List (Triple Float), ts.Perm A.triples → ∃ B, SymMatrix.ofTriples A.dim ts = .ok B ∧ B.triples = ts ∧
        B.compressed = A.compressed ∧ (∀ d, B.dense d = A.dense d) ∧ ∀ X, B.inner X = A.inner X) ∧
    ∀ P Q : Program Float, Q.Reorders P →
      (∀ y, (Q.momentMatrix y).map (⟨Q.dim, ·⟩) = ((P.momentMatrix y).map (⟨P.dim, ·⟩) : Outcome ((d : Nat) × Grid d Float))) ∧
      (∀ X, Q.applyConstraints X = P.applyConstraints X) ∧ ∀ X, Q.primalObjective X = P.primalObjective X := by
  constructor
  · intro A
    refine ⟨A.compressed_represents, ?_, ?_, ?_, ?_⟩
    · intro r c v hv
      rw [A.compressed_represents.mem_entries] at hv
      rw [SymMatrix.get_dense, SymMatrix.cell, SymMatrix.storedAt_eq_some_iff.2 hv]
      rfl
    · intro r c hnone
      have hstored : A.storedAt r c = none := by
        rw [Option.eq_none_iff_forall_ne_some]
        intro v hv
        exact hnone v ((A.compressed_represents.mem_entries r c v).2 (SymMatrix.storedAt_eq_some_iff.1 hv))
      rw [SymMatrix.get_dense, SymMatrix.cell, hstored]
      rfl
    · intro r c
      rw [SymMatrix.get_dense, SymMatrix.get_dense, A.cell_comm]
    · intro ts hts
      obtain ⟨B, hB, htriples, hreorders⟩ := A.exists_reordering hts
      exact ⟨B, hB, htriples, hreorders.compressed_eq, hreorders.dense_eq, fun X => hreorders.innerAlong_eq X _⟩
  · intro P Q h
    exact ⟨h.momentMatrix_eq, h.applyConstraints_eq, h.primalObjective_eq⟩

/-- the program `mixedDoubles` with the two triples of its fixed matrix swapped -/
def swappedDoubles : Program Float :=
  { mixedDoubles with
    fixed := ⟨2, [⟨1, 1, 1.0⟩, ⟨0, 0, 1.0⟩], by decide, by decide, by decide, by decide⟩
    fixed_dim := rfl }

/-- swapped triples change neither the compressed rows of the fixed matrix nor the moment matrix at multiplier one half -/
theorem canonical_full_form_swapped :
    swappedDoubles.fixed.triples ≠ mixedDoubles.fixed.triples ∧
      (∃ B, SymMatrix.ofTriples 2 [⟨1, 1, 1.0⟩, ⟨0, 0, 1.0⟩] = .ok B ∧ B.compressed = mixedDoubles.fixed.compressed) ∧
      (swappedDoubles.momentMatrix [0.5]).map (⟨2, ·⟩) =
        ((mixedDoubles.momentMatrix [0.5]).map (⟨2, ·⟩) : Outcome ((d : Nat) × Grid d Float)) := by
  have hperm : [⟨1, 1, 1.0⟩, ⟨0, 0, 1.0⟩].Perm mixedDoubles.fixed.triples := List.Perm.swap _ _ _
  have hreorders : swappedDoubles.Reorders mixedDoubles :=
    ⟨rfl, rfl, rfl, ⟨rfl, hperm⟩, List.forall₂_same.2 fun A _ => ⟨rfl, .refl _⟩⟩
  refine ⟨by decide, ?_, ?_⟩
  · obtain ⟨-, -, -, -, hany⟩ := canonical_full_form.1 mixedDoubles.fixed
    obtain ⟨B, hB, -, hcompressed, -⟩ := hany _ hperm
    exact ⟨B, hB, hcompressed⟩
  · exact (canonical_full_form.2 mixedDoubles swappedDoubles hreorders).1 [0.5]

end MomentProgram
