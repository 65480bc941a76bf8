/-
The dual of an encoded program is the relaxation.

A program and a Gram matrix of doubles are read exactly by reading every number they hold (`Program.exactly`, `Gram.exactly`). Two
computations then look at the same multipliers: the Gram matrix looks up, for every cell, the moment of its tag; the program reduces
the fixed matrix constraint by constraint. A cell of tag k has minus its phase in constraint matrix k - 1 and nothing in any other
matrix, so exactly one step of the reduction touches it and adds its phase times multiplier k - 1, which is moment k
(`momentCell_exactly`). The constant moment 1 in front of the multipliers makes up for the shift between the two numberings.

`dual_is_relaxation` states the agreement for the whole matrix, zero cells and both triangles included, and for the objective.
-/
import Mathlib
import MomentProgram.Proofs.Program.Duality
import MomentProgram.Proofs.Program.Partition

namespace MomentProgram

/-! ## Exact readings -/

/-- a program of doubles with every number read exactly -/
def Program.exactly (P : Program Float) : Program ℚ where
  dim := P.dim
  offset := exactValue P.offset
  fixed := P.fixed.map exactValue
  constraints := P.constraints.map (·.map exactValue)
  bounds := P.bounds.map exactValue
  dim_pos := P.dim_pos
  fixed_dim := P.fixed_dim
  constraint_dim := by simpa [SymMatrix.map] using P.constraint_dim
  length_eq := by simpa using P.length_eq
  bounds_finite := fun _ _ => rfl
  offset_finite := rfl

/-- a Gram matrix of doubles with every phase read exactly -/
def Gram.exactly {d : ℕ} (g : Gram d Float) : Gram d ℚ where
  tags := g.tags
  phases := g.phases.map exactValue
  least := g.least
  symmetric := g.symmetric
  contiguous := g.contiguous
  mirrored := Grid.isSymmetric_iff.2 fun r c => by
    rw [Grid.get_map, Grid.get_map, exactValue_eq_of_beq (g.phase_beq r c)]
    exact beq_self_eq_true _
  cleared r c h := by
    rw [Grid.get_map, g.cleared r c h]
    exact exactValue_zero

theorem Gram.exactly_phase_comm {d : ℕ} (g : Gram d Float) (r c : Fin d) :
    g.exactly.phases.get r c = g.exactly.phases.get c r := by
  simp only [Gram.exactly, Grid.get_map]
  exact exactValue_eq_of_beq (g.phase_beq r c)

/-! ## One cell -/

/-- a sum in which one element at most has a value -/
theorem sum_zip_single {β : Type} (y : List ℚ) (l : List β) (f : β → ℚ) (j : ℕ) (v : ℚ) (hlen : y.length = l.length)
    (hf : ∀ i (hi : i < l.length), f l[i] = if i = j then v else 0) :
    ((y.zip l).map fun p => p.1 * f p.2).sum = y.getD j 0 * v := by
  induction l generalizing y j with
  | nil =>
    obtain rfl := List.length_eq_zero_iff.1 hlen
    simp
  | cons x l ih =>
    obtain ⟨y₀, y, rfl⟩ := List.exists_cons_of_length_eq_add_one hlen
    simp only [List.length_cons, Nat.add_right_cancel_iff] at hlen
    have hx : f x = if 0 = j then v else 0 := hf 0 (by simp)
    have hl : ∀ i (hi : i < l.length), f l[i] = if i + 1 = j then v else 0 := fun i hi => hf (i + 1) (by simpa using hi)
    rw [List.zip_cons_cons, List.map_cons, List.sum_cons]
    cases j with
    | zero =>
      -- the rest has no value, as if its one place were past the end
      rw [ih y y.length hlen fun i hi => by rw [hl i hi, if_neg (by omega), if_neg (by omega)], hx, if_pos rfl]
      simp
    | succ j =>
      rw [ih y j hlen fun i hi => by rw [hl i hi]; simp only [Nat.add_right_cancel_iff], hx, if_neg (by omega)]
      simp

namespace Encodes

variable {κ : Type} {toReal : κ → Outcome Float} {R : Relaxation Float κ} {P : Program Float}

/-- what a cell of matrix `k` is worth -/
theorem cell_matrices (h : Encodes toReal R P) {k : ℕ} (hk : k < P.matrices.length) {r c : Fin R.size} (hle : c ≤ r) :
    (P.matrices[k].map exactValue).cell r c =
      if R.gram.tags.get r c = k then exactValue (storedPhase k (R.gram.phases.get r c)) else 0 := by
  simp only [SymMatrix.cell, SymMatrix.storedAt_map, h.storedAt_matrices hk hle]
  split_ifs <;> rfl

theorem cell_fixed (h : Encodes toReal R P) {r c : Fin R.size} (hle : c ≤ r) :
    P.exactly.fixed.cell r c = if R.gram.tags.get r c = 0 then R.gram.exactly.phases.get r c else 0 := by
  have hcell := h.cell_matrices (k := 0) (Nat.succ_pos _) hle
  rw [Gram.exactly, Grid.get_map]
  exact hcell

theorem cell_constraint (h : Encodes toReal R P) {i : ℕ} (hi : i < P.exactly.constraints.length) {r c : Fin R.size}
    (hle : c ≤ r) :
    P.exactly.constraints[i].cell r c =
      if R.gram.tags.get r c = (i + 1 : ℕ) then -R.gram.exactly.phases.get r c else 0 := by
  have hi' : i < P.constraints.length := by simpa [Program.exactly] using hi
  have hcell := h.cell_matrices (k := i + 1) (Nat.succ_lt_succ hi') hle
  have hstored : exactValue (storedPhase (i + 1) (R.gram.phases.get r c)) = -R.gram.exactly.phases.get r c := by
    rw [Gram.exactly, Grid.get_map, ← exactValue_neg]
    rfl
  rw [hstored] at hcell
  simp only [Program.exactly, List.getElem_map]
  exact hcell

/-- **A cell of the moment matrix is its phase times the moment of its tag.** -/
theorem momentCell_exactly (h : Encodes toReal R P) {y : List ℚ} (hy : y.length = P.exactly.constraints.length) (r c : Fin R.size) :
    P.exactly.momentCell y r c =
      R.gram.exactly.phases.get r c * (1 :: y).getD (R.gram.exactly.tags.get r c).toNat Scalar.zero := by
  have htags : R.gram.exactly.tags = R.gram.tags := rfl
  wlog hle : c ≤ r generalizing r c
  · rw [R.gram.exactly_phase_comm, R.gram.exactly.symmetric, ← this c r (le_of_not_ge hle)]
    simp only [Program.momentCell, SymMatrix.cell_comm _ r.val c.val]
  rw [Program.momentCell_eq, h.cell_fixed hle, htags]
  rcases R.gram.tag_cases r c with htag | ⟨k, -, htag⟩
  · have hzero : R.gram.exactly.phases.get r c = 0 := R.gram.exactly.cleared r c htag
    have hsum := sum_zip_single y P.exactly.constraints (fun A => A.cell r c) 0 0 hy fun i hi => by
      rw [h.cell_constraint hi hle, hzero, neg_zero, ite_self, ite_self]
    rw [hsum, hzero, ite_self]
    simp
  · cases k with
    | zero =>
      -- an identity cell: no constraint matrix holds it
      have hsum := sum_zip_single y P.exactly.constraints (fun A => A.cell r c) 0 0 hy fun i hi => by
        rw [h.cell_constraint hi hle, htag, if_neg (by omega), ite_self]
      rw [hsum, htag]
      simp
    | succ k =>
      have hsum := sum_zip_single y P.exactly.constraints (fun A => A.cell r c) k (-R.gram.exactly.phases.get r c) hy fun i hi => by
        rw [h.cell_constraint hi hle, htag]
        refine if_congr ?_ rfl rfl
        omega
      have hne : ¬ (((k + 1 : ℕ) : ℤ) = 0) := by omega
      rw [hsum, htag, if_neg hne]
      simp only [Int.toNat_natCast, List.getD_cons_succ, scalar_zero_rat]
      ring

end Encodes

/-! ## The whole matrix and the objective -/

/-- a grid filled from a function of two numbers depends on its extent only through that function -/
theorem sigma_ofFn {α : Type} {d e : ℕ} (h : d = e) (f : ℕ → ℕ → α) :
    (⟨d, .ofFn fun r c => f r c⟩ : (n : ℕ) × Grid n α) = ⟨e, .ofFn fun r c => f r c⟩ := by
  subst h; rfl

namespace Encodes

variable {κ : Type} {toReal : κ → Outcome Float} {R : Relaxation Float κ} {P : Program Float}

theorem length_constraints (h : Encodes toReal R P) {y : List ℚ} (hy : y.length = R.gram.monomials - 1) :
    y.length = P.exactly.constraints.length := by
  have hcount := h.count_constraints
  simp only [Program.exactly, List.length_map]
  omega

theorem momentMatrix_exactly (h : Encodes toReal R P) {y : List ℚ} (hy : y.length = R.gram.monomials - 1) :
    ∃ M : Grid R.size ℚ, (P.exactly.momentMatrix y).map (⟨P.dim, ·⟩) = .ok (⟨R.size, M⟩ : (d : ℕ) × Grid d ℚ) ∧
      R.gram.exactly.evaluate (1 :: y) = .ok M := by
  have hlen := h.length_constraints hy
  have hmonomials : (1 :: y).length = R.gram.exactly.monomials := by
    have hcount := h.count_constraints
    rw [List.length_cons, hy]
    show _ = R.gram.monomials
    omega
  refine ⟨.ofFn fun r c => P.exactly.momentCell y r c, ?_, ?_⟩
  · rw [P.exactly.momentMatrix_of_length hlen]
    exact congrArg Except.ok (sigma_ofFn h.dim_eq (P.exactly.momentCell y))
  · rw [Gram.evaluate, if_neg (not_not.2 hmonomials), if_neg (by simp)]
    simp only [← h.momentCell_exactly hlen]

theorem dualObjective_exactly (h : Encodes toReal R P) {y : List ℚ} (hy : y.length = R.gram.monomials - 1) :
    ∃ cs, R.objective.mapM toReal = .ok cs ∧
      P.exactly.dualObjective y = .ok (List.zipWith (· * ·) (cs.map exactValue) (1 :: y)).sum := by
  refine ⟨P.offset :: P.bounds, Outcome.mapM_ok.2 h.values, ?_⟩
  rw [P.exactly.dualObjective_of_length (h.length_constraints hy), List.map_cons, List.zipWith_cons_cons, List.sum_cons, mul_one,
    List.zipWith_comm]
  simp only [mul_comm]
  rfl

end Encodes

/-- **The dual of the encoded program is the moment relaxation.** For every relaxation that is encoded and every list of as many numbers
as there are monomials besides the identity, read exactly: the moment matrix of the program is the Gram matrix with 1 and these
numbers as moments, cell by cell, and the dual objective is the sum of the coefficients, as real numbers, times the moments. -/
theorem dual_is_relaxation {κ : Type} (toReal : κ → Outcome Float) (R : Relaxation Float κ) (P : Program Float)
    (hP : R.surface.encode toReal = .ok P) (y : List ℚ) (hy : y.length = R.gram.monomials - 1) :
    (∃ M : Grid R.size ℚ, (P.exactly.momentMatrix y).map (⟨P.dim, ·⟩) = .ok (⟨R.size, M⟩ : (d : ℕ) × Grid d ℚ) ∧
      R.gram.exactly.evaluate (1 :: y) = .ok M) ∧
    ∃ cs, R.objective.mapM toReal = .ok cs ∧
      P.exactly.dualObjective y = .ok (List.zipWith (· * ·) (cs.map exactValue) (1 :: y)).sum :=
  have h := Relaxation.encode_ok hP
  ⟨h.momentMatrix_exactly hy, h.dualObjective_exactly hy⟩

/-- the corner matrix at moment 7 -/
theorem dual_is_relaxation_corner : ∃ P, ∃ M : Grid 2 ℚ, cornerRelaxation.surface.encode .ok = .ok P ∧
    (P.exactly.momentMatrix [7]).map (⟨P.dim, ·⟩) = .ok (⟨2, M⟩ : (d : ℕ) × Grid d ℚ) ∧
    cornerRelaxation.gram.exactly.evaluate [1, 7] = .ok M := by
  obtain ⟨P, hP⟩ := Outcome.exists_ok (x := cornerRelaxation.surface.encode .ok) (by decide)
  obtain ⟨⟨M, hM, hevaluate⟩, -⟩ := dual_is_relaxation .ok cornerRelaxation P hP [7] (by decide)
  exact ⟨P, M, hP, hM, hevaluate⟩

end MomentProgram
