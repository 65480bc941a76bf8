/-
Moments are recovered from their moment matrix.

Constraint matrix i - 1 of an encoded program has minus the phase in the cells of monomial i, in both triangles, and zero elsewhere; the
moment matrix has phase times moment there. So its inner product with the moment matrix meets the cells of monomial i only, and in each
it finds minus the square of the phase, times moment i. The sum of these squares is the weight of the monomial (`Gram.weight`).

- `frobenius_constraint`, `frobenius_fixed`: the inner product of a constraint matrix and the moment matrix is minus the moment, weighted;
  that of the fixed matrix is the weight of the identity.
- `Gram.weight_pos`: a monomial weighs something as soon as one of its phases is not zero.
- `momentGrid_injective`: if every monomial weighs something, the moments are recovered by division.
- `linearIndependent_constraints`: a combination of constraint matrices that is zero has a moment matrix that the moments zero have too.

`moments_recovered` collects this for every encoded relaxation; `moments_recovered_corner` reads it off the corner matrix.
-/
import Mathlib
import MomentProgram.Proofs.Program.Moments

namespace MomentProgram

/-- the sum of the squares of the phases of a monomial, over both triangles -/
def Gram.weight {d : ℕ} (g : Gram d ℚ) (k : ℕ) : ℚ := ∑ r, ∑ c, if g.tags.get r c = k then g.phases.get r c ^ 2 else 0

/-- **A monomial with a phase other than zero weighs something.** -/
theorem Gram.weight_pos {d : ℕ} {g : Gram d ℚ} {k : ℕ} {r c : Fin d} (htag : g.tags.get r c = k) (hphase : g.phases.get r c ≠ 0) :
    0 < g.weight k := by
  have hnonneg : ∀ r c, 0 ≤ if g.tags.get r c = k then g.phases.get r c ^ 2 else 0 := by
    intro r c
    split_ifs
    · exact sq_nonneg _
    · exact le_rfl
  have hrows : ∀ r ∈ Finset.univ, 0 ≤ ∑ c, if g.tags.get r c = k then g.phases.get r c ^ 2 else 0 :=
    fun r _ => Finset.sum_nonneg fun c _ => hnonneg r c
  refine Finset.sum_pos' hrows ⟨r, Finset.mem_univ r, ?_⟩
  refine Finset.sum_pos' (fun c _ => hnonneg r c) ⟨c, Finset.mem_univ c, ?_⟩
  rw [if_pos htag]
  positivity

/-- a sum over all rows and columns depends on their number only -/
theorem sum_square_congr {d e : ℕ} (h : d = e) (f : ℕ → ℕ → ℚ) :
    ∑ r : Fin d, ∑ c : Fin d, f r c = ∑ r : Fin e, ∑ c : Fin e, f r c := by
  subst h; rfl

/-- a sum over two lists of one length, the first given by its elements -/
theorem sum_zip_ofFn {β : Type} (l : List β) (a : Fin l.length → ℚ) (f : β → ℚ) :
    (((List.ofFn a).zip l).map fun p => p.1 * f p.2).sum = ∑ i, a i * f l[i] := by
  have hzip : (List.ofFn a).zip l = List.ofFn fun i => (a i, l[i]) := by
    refine List.ext_getElem (by simp) fun i hi hi' => ?_
    simp
  rw [hzip, List.map_ofFn, List.sum_ofFn]
  rfl

/-- the moment matrix of as many multipliers as constraints -/
def Program.momentGrid (P : Program ℚ) (y : List ℚ) : Grid P.dim ℚ := .ofFn fun r c => P.momentCell y r c

namespace Encodes

variable {κ : Type} {toReal : κ → Outcome Float} {R : Relaxation Float κ} {P : Program Float}

/-! ## The matrices over both triangles -/

theorem cell_fixed_full (h : Encodes toReal R P) (r c : Fin R.size) :
    P.exactly.fixed.cell r c = if R.gram.tags.get r c = 0 then R.gram.exactly.phases.get r c else 0 := by
  rcases le_total c r with hle | hle
  · exact h.cell_fixed hle
  · rw [SymMatrix.cell_comm, h.cell_fixed hle, R.gram.symmetric, R.gram.exactly_phase_comm]

theorem cell_constraint_full (h : Encodes toReal R P) {i : ℕ} (hi : i < P.exactly.constraints.length) (r c : Fin R.size) :
    P.exactly.constraints[i].cell r c =
      if R.gram.tags.get r c = (i + 1 : ℕ) then -R.gram.exactly.phases.get r c else 0 := by
  rcases le_total c r with hle | hle
  · exact h.cell_constraint hi hle
  · rw [SymMatrix.cell_comm, h.cell_constraint hi hle, R.gram.symmetric, R.gram.exactly_phase_comm]

/-! ## Inner products with the moment matrix -/

theorem frobenius_momentGrid (h : Encodes toReal R P) (A : SymMatrix ℚ) {y : List ℚ} (hy : y.length = P.exactly.constraints.length) :
    A.frobenius (P.exactly.momentGrid y) = ∑ r : Fin R.size, ∑ c : Fin R.size,
      A.cell r c * (R.gram.exactly.phases.get r c * (1 :: y).getD (R.gram.tags.get r c).toNat 0) := by
  have hsize : P.exactly.dim = R.size := h.dim_eq
  simp only [SymMatrix.frobenius, Program.momentGrid, Grid.get_ofFn]
  rw [sum_square_congr hsize fun r c => A.cell r c * P.exactly.momentCell y r c]
  simp only [h.momentCell_exactly hy]
  rfl

/-- **The inner product of a constraint matrix with the moment matrix is minus the moment, weighted.** -/
theorem frobenius_constraint (h : Encodes toReal R P) {y : List ℚ} (hy : y.length = P.exactly.constraints.length) {i : ℕ}
    (hi : i < P.exactly.constraints.length) :
    P.exactly.constraints[i].frobenius (P.exactly.momentGrid y) = -y[i] * R.gram.exactly.weight (i + 1) := by
  rw [h.frobenius_momentGrid _ hy, Gram.weight, Finset.mul_sum]
  refine Finset.sum_congr rfl fun r _ => ?_
  rw [Finset.mul_sum]
  refine Finset.sum_congr rfl fun c _ => ?_
  have htags : R.gram.exactly.tags = R.gram.tags := rfl
  rw [h.cell_constraint_full hi, htags]
  by_cases htag : R.gram.tags.get r c = (i + 1 : ℕ)
  · have hmoment : (1 :: y).getD (i + 1) 0 = y[i] := by simp [hy ▸ hi]
    rw [if_pos htag, if_pos htag, htag, Int.toNat_natCast, hmoment]
    ring
  · rw [if_neg htag, if_neg htag, zero_mul, mul_zero]

/-- **That of the fixed matrix is the weight of the identity.** -/
theorem frobenius_fixed (h : Encodes toReal R P) {y : List ℚ} (hy : y.length = P.exactly.constraints.length) :
    P.exactly.fixed.frobenius (P.exactly.momentGrid y) = R.gram.exactly.weight 0 := by
  rw [h.frobenius_momentGrid _ hy, Gram.weight]
  refine Finset.sum_congr rfl fun r _ => Finset.sum_congr rfl fun c _ => ?_
  have htags : R.gram.exactly.tags = R.gram.tags := rfl
  rw [h.cell_fixed_full, htags]
  by_cases htag : R.gram.tags.get r c = 0
  · rw [if_pos htag, if_pos (by exact_mod_cast htag), htag, Int.toNat_zero, List.getD_cons_zero]
    ring
  · rw [if_neg htag, if_neg (by exact_mod_cast htag), zero_mul]

/-! ## Recovery -/

/-- **If every monomial weighs something, different moments have different moment matrices.** -/
theorem momentGrid_injective (h : Encodes toReal R P) (hweight : ∀ k < R.gram.monomials, 0 < R.gram.exactly.weight k) {y z : List ℚ}
    (hy : y.length = P.exactly.constraints.length) (hz : z.length = P.exactly.constraints.length)
    (heq : P.exactly.momentGrid y = P.exactly.momentGrid z) : y = z := by
  refine List.ext_getElem (hy.trans hz.symm) fun i hi hi' => ?_
  have hconstraint : i < P.exactly.constraints.length := hy ▸ hi
  have hmonomial : i + 1 < R.gram.monomials := by
    have hcount := h.count_constraints
    have hlength : P.exactly.constraints.length = P.constraints.length := List.length_map _
    omega
  have hproducts : -y[i] * R.gram.exactly.weight (i + 1) = -z[i] * R.gram.exactly.weight (i + 1) := by
    rw [← h.frobenius_constraint hy hconstraint, ← h.frobenius_constraint hz hconstraint, heq]
  exact neg_injective (mul_right_cancel₀ (hweight _ hmonomial).ne' hproducts)

/-- **Then the constraint matrices are linearly independent:** what a combination of them adds to the moment matrix is seen. -/
theorem linearIndependent_constraints (h : Encodes toReal R P) (hweight : ∀ k < R.gram.monomials, 0 < R.gram.exactly.weight k) :
    LinearIndependent ℚ fun i : Fin P.exactly.constraints.length =>
      (Matrix.of fun r c : Fin P.dim => P.exactly.constraints[i].cell r c) := by
  rw [Fintype.linearIndependent_iff]
  intro a hzero
  have hsum : ∀ r c : Fin P.dim, ∑ i, a i * P.exactly.constraints[i].cell r c = 0 := by
    intro r c
    have hcell := congrFun (congrFun hzero r) c
    simpa [Matrix.sum_apply] using hcell
  let zeros : Fin P.exactly.constraints.length → ℚ := fun _ => 0
  have hmatrix : P.exactly.momentGrid (List.ofFn a) = P.exactly.momentGrid (List.ofFn zeros) := by
    refine Grid.ext fun r c => ?_
    simp only [Program.momentGrid, Grid.get_ofFn, Program.momentCell_eq]
    rw [sum_zip_ofFn _ a fun A => A.cell r c, sum_zip_ofFn _ zeros fun A => A.cell r c, hsum r c]
    simp [zeros]
  have hlists := h.momentGrid_injective hweight (List.length_ofFn) (List.length_ofFn) hmatrix
  exact congrFun (List.ofFn_injective hlists)

end Encodes

/-- the weight of a monomial, from phases that are doubles -/
theorem Gram.weight_exactly {d : ℕ} (g : Gram d Float) (k : ℕ) :
    g.exactly.weight k = ∑ r, ∑ c, if g.tags.get r c = k then exactValue (g.phases.get r c) ^ 2 else 0 := by
  simp only [weight, exactly, Grid.get_map]

/-- **Moments are recovered and constraints do not see each other.** For every relaxation that is encoded and as many multipliers as
constraints, read exactly: the constraints at the moment matrix are minus the multipliers, each times the sum of the squares of the phases
of its monomial over both triangles, and the primal objective there is the offset plus that sum for the identity. If every monomial has a
cell whose phase is not zero, different multipliers have different moment matrices, and the constraint matrices are linearly independent. -/
theorem moments_recovered {κ : Type} (toReal : κ → Outcome Float) (R : Relaxation Float κ) (P : Program Float)
    (hP : R.surface.encode toReal = .ok P) :
    (∀ y : List ℚ, y.length = P.numConstraints → ∃ M values objective,
      P.exactly.momentMatrix y = .ok M ∧ P.exactly.applyConstraints (.ofGrid M) = .ok values ∧
      P.exactly.primalObjective (.ofGrid M) = .ok objective ∧ values.length = y.length ∧
      (∀ i (hv : i < values.length) (hy : i < y.length), values[i] = -y[i] *
        ∑ r, ∑ c, if R.gram.tags.get r c = (i + 1 : ℕ) then exactValue (R.gram.phases.get r c) ^ 2 else 0) ∧
      objective = exactValue P.offset +
        ∑ r, ∑ c, if R.gram.tags.get r c = (0 : ℕ) then exactValue (R.gram.phases.get r c) ^ 2 else 0) ∧
    ((∀ k : ℕ, k < R.gram.monomials → ∃ r c, R.gram.tags.get r c = k ∧ exactValue (R.gram.phases.get r c) ≠ 0) →
      (∀ y z : List ℚ, y.length = P.numConstraints → z.length = P.numConstraints →
        P.exactly.momentMatrix y = P.exactly.momentMatrix z → y = z) ∧
      LinearIndependent ℚ fun i : Fin P.constraints.length => (P.constraints[i].dense P.dim).exactMatrix) := by
  have h := Relaxation.encode_ok hP
  have hcount : P.exactly.constraints.length = P.constraints.length := List.length_map _
  constructor
  · intro y hy
    have hlength : y.length = P.exactly.constraints.length := hy.trans hcount.symm
    let M := P.exactly.momentGrid y
    refine ⟨M, _, _, P.exactly.momentMatrix_of_length hlength, P.exactly.applyConstraints_ofGrid M, P.exactly.primalObjective_ofGrid M,
      by rw [List.length_map, hlength], ?_, ?_⟩
    · intro i hv hi
      rw [List.getElem_map, h.frobenius_constraint hlength, Gram.weight_exactly]
    · rw [h.frobenius_fixed hlength, Gram.weight_exactly]
      rfl
  · intro hphases
    have hweight : ∀ k < R.gram.monomials, 0 < R.gram.exactly.weight k := by
      intro k hk
      obtain ⟨r, c, htag, hphase⟩ := hphases k hk
      exact Gram.weight_pos (g := R.gram.exactly) htag (by rwa [Gram.exactly, Grid.get_map])
    constructor
    · intro y z hy hz heq
      have hy' : y.length = P.exactly.constraints.length := hy.trans hcount.symm
      have hz' : z.length = P.exactly.constraints.length := hz.trans hcount.symm
      rw [P.exactly.momentMatrix_of_length hy', P.exactly.momentMatrix_of_length hz'] at heq
      exact h.momentGrid_injective hweight hy' hz' (Except.ok.inj heq)
    · have hmatrices := (h.linearIndependent_constraints hweight).comp (Fin.cast hcount.symm) (Fin.cast_injective _)
      have hdense : ∀ i : Fin P.constraints.length, (P.constraints[i].dense P.dim).exactMatrix =
          Matrix.of fun r c : Fin P.dim => P.exactly.constraints[Fin.cast hcount.symm i].cell r c := by
        intro i
        ext r c
        have hconstraint : P.exactly.constraints[Fin.cast hcount.symm i] = P.constraints[i].map exactValue := List.getElem_map _
        rw [Grid.exactMatrix, Matrix.of_apply, Matrix.of_apply, hconstraint, SymMatrix.cell_exactly, SymMatrix.get_dense]
      rw [funext hdense]
      exact hmatrices

/-- the corner matrix at moment 7: two cells with phase -2 weigh 8, and the moment is recovered -/
theorem moments_recovered_corner : ∃ P, ∃ M : Grid P.exactly.dim ℚ, cornerRelaxation.surface.encode .ok = .ok P ∧
    P.exactly.momentMatrix [7] = .ok M ∧ P.exactly.applyConstraints (.ofGrid M) = .ok [-7 * 8] ∧
    P.exactly.primalObjective (.ofGrid M) = .ok (3 + 1) ∧
    LinearIndependent ℚ fun i : Fin P.constraints.length => (P.constraints[i].dense P.dim).exactMatrix := by
  obtain ⟨P, hP⟩ := Outcome.exists_ok (x := cornerRelaxation.surface.encode .ok) (by decide)
  have h := Relaxation.encode_ok hP
  have hmonomials : cornerRelaxation.gram.monomials = 2 := by decide
  have hcount : P.numConstraints = 1 := Nat.add_right_cancel (h.count_constraints.trans hmonomials)
  obtain ⟨c, rest, hcons, hc⟩ := h.offset_eq
  obtain rfl : 3.0 = c := (List.cons.inj hcons).1
  obtain ⟨hrecovered, hindependent⟩ := moments_recovered .ok cornerRelaxation P hP
  obtain ⟨M, values, objective, hM, hvalues, hobjective, hlength, hvalue, rfl⟩ := hrecovered [7] hcount.symm
  obtain ⟨v, rfl⟩ := List.length_eq_one_iff.1 hlength
  refine ⟨P, M, hP, hM, ?_, ?_, (hindependent ?_).2⟩
  · have hfirst : v = -7 * _ := hvalue 0 Nat.one_pos Nat.one_pos
    rw [hvalues, hfirst]
    congr 3
    decide +kernel
  · rw [hobjective, ← Except.ok.inj hc]
    congr 2
    · decide +kernel
    · decide +kernel
  · intro k hk
    rw [hmonomials] at hk
    interval_cases k
    · exact ⟨(0 : Fin 2), (0 : Fin 2), by decide, by decide +kernel⟩
    · exact ⟨(1 : Fin 2), (0 : Fin 2), by decide, by decide +kernel⟩

end MomentProgram
