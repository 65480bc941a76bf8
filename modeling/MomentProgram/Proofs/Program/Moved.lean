/-
Programs of a Gram matrix with its rows and columns in another order.

A permutation of rows and columns moves cells across the diagonal, so the triples that a matrix stores are different ones afterwards. The
full matrix is moved nevertheless: it reads both triangles from the lower one, and what stands above the diagonal of a Gram matrix has
the tag of its mirror and a phase that differs in the sign of a zero at most (`cell_matrices_eq`), which the full matrix does not show.

- `Gram.exists_moved`: the moved tags and phases pass every check that the others have passed, and make the moved Gram matrix.
- `Encodes.cell_moved`: every matrix of the program has its cells moved along.
- `encoding_commutes_with_reordering`: acceptance, bounds, offset, full matrices and moment matrices; `encoding_commutes_with_reordering_swap`
  exchanges the last two rows of a matrix with a negative phase.
-/
import Mathlib
import MomentProgram.Proofs.Gram.Tags
import MomentProgram.Proofs.Program.Duality
import MomentProgram.Proofs.Program.Moments
import MomentProgram.Proofs.Program.Refusal

namespace MomentProgram

/-! ## Moved Gram matrices -/

/-- the grid with cell `(r, c)` moved to `(p r, p c)` -/
def Grid.moved {d : ℕ} {α : Type} (p : Equiv.Perm (Fin d)) (g : Grid d α) : Grid d α := .ofFn fun r c => g.get (p.symm r) (p.symm c)

@[simp] theorem Grid.get_moved {d : ℕ} {α : Type} (p : Equiv.Perm (Fin d)) (g : Grid d α) (r c : Fin d) :
    (g.moved p).get (p r) (p c) = g.get r c := by
  rw [moved, get_ofFn, Equiv.symm_apply_apply, Equiv.symm_apply_apply]

/-- what holds of all moved cells holds of all cells -/
theorem forall_cells_moved {d : ℕ} (p : Equiv.Perm (Fin d)) {holds : Fin d → Fin d → Prop} :
    (∀ r c, holds (p r) (p c)) ↔ ∀ r c, holds r c := by
  refine ⟨fun h r c => ?_, fun h r c => h _ _⟩
  have := h (p.symm r) (p.symm c)
  rwa [Equiv.apply_symm_apply, Equiv.apply_symm_apply] at this

/-- phases given as a grid, or none given -/
def givenGrid {d : ℕ} (phases : Option (Grid d Float)) : Option (Outcome (Tensor Float)) := phases.map fun F => .ok (.ofGrid F)

namespace Gram

variable {d : ℕ} (p : Equiv.Perm (Fin d))

theorem ValidTags.moved {tags : Grid d Int} (h : ValidTags tags) : ValidTags (tags.moved p) where
  least := (forall_cells_moved p).1 fun r c => by simpa using h.least r c
  symmetric := (forall_cells_moved p).1 fun r c => by simpa using h.symmetric r c
  contiguous := by
    obtain ⟨k, hk⟩ := h.contiguous
    refine ⟨k, fun n hn => ?_⟩
    rw [← hk n hn]
    constructor
    · rintro ⟨r, c, rfl⟩
      exact ⟨p.symm r, p.symm c, by rw [Grid.moved, Grid.get_ofFn]⟩
    · rintro ⟨r, c, rfl⟩
      exact ⟨p r, p c, by simp⟩

/-- moved phases pass the check of the phases -/
theorem givenPhases_moved {phases : Option (Grid d Float)} {F : { F : Grid d Float // F.isSymmetric (· == ·) = true }}
    (h : givenPhases d (givenGrid phases) = .ok F) :
    ∃ F', givenPhases d (givenGrid (phases.map (Grid.moved p))) = .ok F' ∧ F'.1 = F.1.moved p := by
  cases phases with
  | none =>
    cases h
    refine ⟨_, rfl, Grid.ext fun r c => ?_⟩
    rw [Grid.moved, Grid.get_ofFn, Grid.get_ofFn, Grid.get_ofFn]
  | some G =>
    have hread : ∀ G : Grid d Float, givenPhases d (givenGrid (some G)) =
        if h : G.isSymmetric (· == ·) = true then .ok ⟨G, h⟩ else .error .phasesNotSymmetric := by
      intro G
      simp only [givenPhases, givenGrid, Option.map_some, Tensor.toGridOf?_ofGrid]
    rw [hread] at h
    split_ifs at h with hsymmetric
    cases h
    have hmoved : (G.moved p).isSymmetric (· == ·) = true := by
      rw [Grid.isSymmetric_iff] at hsymmetric ⊢
      exact (forall_cells_moved p).1 fun r c => by simpa using hsymmetric r c
    exact ⟨⟨G.moved p, hmoved⟩, (hread _).trans (dif_pos hmoved), rfl⟩

/-- a Gram matrix that has the cells of another one, moved -/
structure Moves (g' g : Gram d Float) : Prop where
  tags : g'.tags = g.tags.moved p
  phases : g'.phases = g.phases.moved p

variable {p}

/-- **Moved tags and phases make the moved Gram matrix.** -/
theorem exists_moved {tags : Grid d Int} {phases : Option (Grid d Float)} {g : Gram d Float}
    (h : ofTags tags (givenGrid phases) = .ok g) :
    ∃ g', ofTags (tags.moved p) (givenGrid (phases.map (Grid.moved p))) = .ok g' ∧ Moves p g' g := by
  obtain ⟨F, hF, hphases⟩ := phases_of_ofTags h
  have htags := tags_of_ofTags h
  obtain ⟨F', hF', hmoved⟩ := givenPhases_moved p hF
  have hvalid : ValidTags tags := htags ▸ g.validTags
  obtain ⟨g', hg', htags', hphases'⟩ := exists_ofTags (ValidTags.moved p hvalid) hF'
  refine ⟨g', hg', by rw [htags', htags], Grid.ext ((forall_cells_moved p).1 fun r c => ?_)⟩
  rw [hphases', hphases, hmoved]
  simp only [clearedPhases, Grid.get_moved, Grid.get_ofFn]

namespace Moves

variable {g' g : Gram d Float} (h : Moves p g' g)

include h

theorem get_tags (r c : Fin d) : g'.tags.get (p r) (p c) = g.tags.get r c := by rw [h.tags, Grid.get_moved]

theorem get_phases (r c : Fin d) : g'.phases.get (p r) (p c) = g.phases.get r c := by rw [h.phases, Grid.get_moved]

theorem monomials_eq : g'.monomials = g.monomials := by
  apply le_antisymm
  · exact monomialCount_le ((forall_cells_moved p).1 fun r c => by rw [h.get_tags]; exact g.tag_lt r c)
  · exact monomialCount_le fun r c => by rw [← h.get_tags]; exact g'.tag_lt _ _

/-- the identity stays in front if the first row does -/
theorem identityFirst_eq (hfirst : ∀ hd : 0 < d, p ⟨0, hd⟩ = ⟨0, hd⟩) : g'.identityFirst = g.identityFirst := by
  unfold identityFirst
  split
  case isTrue hd =>
    have htag := h.get_tags ⟨0, hd⟩ ⟨0, hd⟩
    have hphase := h.get_phases ⟨0, hd⟩ ⟨0, hd⟩
    rw [hfirst hd] at htag hphase
    rw [htag, hphase]
  case isFalse => rfl

end Moves

end Gram

/-! ## Full matrices -/

/-- the full matrix does not show which of two mirrored phases is stored -/
theorem fromZero_storedPhase_congr {x y : Float} (k : ℕ) (h : x = y ∨ Double.IsZero x ∧ Double.IsZero y) :
    Scalar.fromZero (storedPhase k x) = Scalar.fromZero (storedPhase k y) := by
  have hzero : ∀ z : Float, Double.IsZero z → Scalar.fromZero (storedPhase k z) = 0.0 := by
    rintro z (rfl | rfl) <;> unfold storedPhase <;> split_ifs <;> rfl
  rcases h with rfl | ⟨hx, hy⟩
  · rfl
  · rw [hzero x hx, hzero y hy]

namespace Encodes

variable {κ : Type} {toReal : κ → Outcome Float}

/-- **A cell of the full matrix is read from the tag and the phase that stand there,** in either triangle. -/
theorem cell_matrices_eq {R : Relaxation Float κ} {P : Program Float} (h : Encodes toReal R P) {k : ℕ} (hk : k < P.matrices.length)
    (r c : Fin R.size) :
    P.matrices[k].cell r c =
      if R.gram.tags.get r c = k then Scalar.fromZero (storedPhase k (R.gram.phases.get r c)) else Scalar.zero := by
  wlog hle : c ≤ r generalizing r c
  · rw [SymMatrix.cell_comm, this c r (le_of_not_ge hle), R.gram.symmetric c r,
      fromZero_storedPhase_congr k (R.gram.phase_mirrored c r)]
  · rw [SymMatrix.cell, h.storedAt_matrices hk hle]
    split_ifs <;> rfl

variable {d : ℕ} {p : Equiv.Perm (Fin d)} {g g' : Gram d Float} {objective : List κ} {hlength : objective.length = monomialCount g.tags}
  {hlength' : objective.length = monomialCount g'.tags} {P P' : Program Float}

/-- **The matrices of the moved Gram matrix are moved.** -/
theorem cell_moved (h : Encodes toReal ⟨d, g, objective, hlength⟩ P) (h' : Encodes toReal ⟨d, g', objective, hlength'⟩ P')
    (hmoves : g'.Moves p g) {k : ℕ} (hk : k < P.matrices.length) (hk' : k < P'.matrices.length) (r c : Fin d) :
    P'.matrices[k].cell (p r) (p c) = P.matrices[k].cell r c := by
  rw [h'.cell_matrices_eq hk' (p r) (p c), h.cell_matrices_eq hk r c, hmoves.get_tags, hmoves.get_phases]

theorem momentCell_moved (h : Encodes toReal ⟨d, g, objective, hlength⟩ P) (h' : Encodes toReal ⟨d, g', objective, hlength'⟩ P')
    (hmoves : g'.Moves p g) (y : List Float) (r c : Fin d) : P'.momentCell y (p r) (p c) = P.momentCell y r c := by
  have hcount : P'.matrices.length = P.matrices.length := by rw [h'.count, h.count, hmoves.monomials_eq]
  refine Program.momentCell_congr (h.cell_moved h' hmoves (k := 0) (Nat.succ_pos _) (Nat.succ_pos _) r c) ?_ y
  refine List.forall₂_iff_get.2 ⟨Nat.succ.inj hcount, fun i hi' hi => ?_⟩
  exact h.cell_moved h' hmoves (k := i + 1) (Nat.succ_lt_succ hi) (Nat.succ_lt_succ hi') r c

end Encodes

/-- **Encoding commutes with reordering the rows and columns.** Let tags and phases, given or not, make a Gram matrix of size up to 2^32
that is encoded with some coefficients, and let a permutation of its rows and columns leave the first in place. The moved tags and
phases make a Gram matrix, which is encoded with the same coefficients, with the same offset and the same bounds. Its full matrices are
those of the first program with the cells moved along, bit for bit, and so are its moment matrices, for all multipliers; a wrong number
of multipliers is refused by both. -/
theorem encoding_commutes_with_reordering {κ : Type} {d : ℕ} (toReal : κ → Outcome Float) (tags : Grid d Int)
    (phases : Option (Grid d Float)) (g : Gram d Float) (objective : List κ) (R : Relaxation Float κ) (P : Program Float)
    (p : Equiv.Perm (Fin d)) (hsize : d ≤ 2 ^ 32) (hg : Gram.ofTags tags (phases.map fun F => .ok (.ofGrid F)) = .ok g)
    (hR : Relaxation.ofParts g (some objective) = .ok R) (hP : R.surface.encode toReal = .ok P)
    (hfirst : ∀ hd : 0 < d, p ⟨0, hd⟩ = ⟨0, hd⟩) :
    ∃ (g' : Gram d Float) (R' : Relaxation Float κ) (P' : Program Float),
      Gram.ofTags (tags.moved p) ((phases.map (Grid.moved p)).map fun F => .ok (.ofGrid F)) = .ok g' ∧
      Relaxation.ofParts g' (some objective) = .ok R' ∧ R'.surface.encode toReal = .ok P' ∧
      P'.offset = P.offset ∧ P'.bounds = P.bounds ∧ P.dim = d ∧ P'.dim = d ∧
      (∀ r c, (P'.fixed.dense d).get (p r) (p c) = (P.fixed.dense d).get r c) ∧
      P'.constraints.length = P.constraints.length ∧
      (∀ i (hi : i < P.constraints.length) (hi' : i < P'.constraints.length), ∀ r c,
        (P'.constraints[i].dense d).get (p r) (p c) = (P.constraints[i].dense d).get r c) ∧
      ∀ y : List Float,
        (y.length = P.numConstraints → ∃ M M' : Grid d Float,
          (P.momentMatrix y).map (⟨P.dim, ·⟩) = .ok (⟨d, M⟩ : (n : ℕ) × Grid n Float) ∧
          (P'.momentMatrix y).map (⟨P'.dim, ·⟩) = .ok (⟨d, M'⟩ : (n : ℕ) × Grid n Float) ∧
          ∀ r c, M'.get (p r) (p c) = M.get r c) ∧
        (y.length ≠ P.numConstraints → P.momentMatrix y = .error .momentMatrixLength ∧
          P'.momentMatrix y = .error .momentMatrixLength) := by
  obtain ⟨hlength, rfl⟩ := Relaxation.ofParts_ok hR
  have h := Relaxation.encode_ok hP
  obtain ⟨g', hg', hmoves⟩ := Gram.exists_moved (p := p) hg
  have hlength' : objective.length = monomialCount g'.tags := hlength.trans hmoves.monomials_eq.symm
  have hidentity : g'.identityFirst = true := (hmoves.identityFirst_eq hfirst).trans h.first
  let R' : Relaxation Float κ := ⟨d, g', objective, hlength'⟩
  obtain ⟨P', hP', hdim, hvalues⟩ := Relaxation.encode_of_finite (R := R') hidentity (R'.hasMatrices hsize) h.values P.values_finite
  obtain ⟨hoffset, hbounds⟩ := List.cons.inj hvalues
  have h' : Encodes toReal R' P' := Relaxation.encode_ok hP'
  have hcount : P'.numConstraints = P.numConstraints := by
    rw [Program.numConstraints, ← P'.length_eq, ← hbounds, P.length_eq, Program.numConstraints]
  refine ⟨g', R', P', hg', Relaxation.ofParts_of_length hlength', hP', hoffset.symm, hbounds.symm, h.dim_eq, hdim, fun r c => ?_,
    hcount, fun i hi hi' r c => ?_, fun y => ⟨fun hy => ?_, fun hy => ?_⟩⟩
  · rw [SymMatrix.get_dense, SymMatrix.get_dense]
    exact h.cell_moved h' hmoves (k := 0) (Nat.succ_pos _) (Nat.succ_pos _) r c
  · rw [SymMatrix.get_dense, SymMatrix.get_dense]
    exact h.cell_moved h' hmoves (k := i + 1) (Nat.succ_lt_succ hi) (Nat.succ_lt_succ hi') r c
  · refine ⟨.ofFn fun r c => P.momentCell y r c, .ofFn fun r c => P'.momentCell y r c, ?_, ?_, fun r c => ?_⟩
    · rw [P.momentMatrix_of_length hy]
      exact congrArg Except.ok (sigma_ofFn h.dim_eq (P.momentCell y))
    · rw [P'.momentMatrix_of_length (hy.trans hcount.symm)]
      exact congrArg Except.ok (sigma_ofFn hdim (P'.momentCell y))
    · rw [Grid.get_ofFn, Grid.get_ofFn]
      exact h.momentCell_moved h' hmoves y r c
  · exact ⟨P.momentMatrix_of_length_ne hy, P'.momentMatrix_of_length_ne fun hy' => hy (hy'.trans hcount)⟩

/-! ## A triangle -/

/-- the identity on the diagonal, one monomial in the corner, and another one beside and below it -/
def triangleTags : Grid 3 Int := ⟨#v[0, 1, 2, 1, 0, 2, 2, 2, 0]⟩

/-- phases of which one mirrored pair is negative -/
def trianglePhases : Grid 3 Float := ⟨#v[1.0, 1.0, 1.0, 1.0, 1.0, -1.0, 1.0, -1.0, 1.0]⟩

theorem triangle_encoded : ∃ (g : Gram 3 Float) (R : Relaxation Float Float) (P : Program Float),
    Gram.ofTags triangleTags (some (.ok (.ofGrid trianglePhases))) = .ok g ∧ Relaxation.ofParts g (some [0.5, 1.0, -2.0]) = .ok R ∧
    R.surface.encode .ok = .ok P := by
  let made : Outcome (Program Float) := (Gram.ofTags triangleTags (some (.ok (.ofGrid trianglePhases)))).bind fun g =>
    (Relaxation.ofParts g (some [0.5, 1.0, -2.0])).bind fun R => R.surface.encode .ok
  obtain ⟨P, hP⟩ := Outcome.exists_ok (x := made) (by decide +kernel)
  obtain ⟨g, hg, hrest⟩ := Outcome.bind_ok.1 hP
  obtain ⟨R, hR, hP⟩ := Outcome.bind_ok.1 hrest
  exact ⟨g, R, P, hg, hR, hP⟩

/-- with the last two rows exchanged, the negative cell below the diagonal comes from above it -/
theorem encoding_commutes_with_reordering_swap : ∃ (P P' : Program Float) (g' : Gram 3 Float) (R' : Relaxation Float Float),
    Gram.ofTags (triangleTags.moved (.swap 1 2)) (some (.ok (.ofGrid (trianglePhases.moved (.swap 1 2))))) = .ok g' ∧
    Relaxation.ofParts g' (some [0.5, 1.0, -2.0]) = .ok R' ∧ R'.surface.encode .ok = .ok P' ∧ P'.bounds = P.bounds ∧
    (P'.fixed.dense 3).get 2 2 = (P.fixed.dense 3).get 1 1 ∧
    ∀ i (hi : i < P.constraints.length) (hi' : i < P'.constraints.length),
      (P'.constraints[i].dense 3).get 2 1 = (P.constraints[i].dense 3).get 1 2 := by
  obtain ⟨g, R, P, hg, hR, hP⟩ := triangle_encoded
  obtain ⟨g', R', P', hg', hR', hP', -, hbounds, -, -, hfixed, -, hconstraints, -⟩ :=
    encoding_commutes_with_reordering .ok triangleTags (some trianglePhases) g _ R P (.swap 1 2) (by decide) hg hR hP (by decide)
  exact ⟨P, P', g', R', hg', hR', hP', hbounds, hfixed 1 1, fun i hi hi' => hconstraints i hi hi' 1 2⟩

end MomentProgram
