/-
The checks of a program against each other.

Four computations look at a point of a program and at one of its dual: sparse inner products with a symmetrised array, an inner
product of lists, and a dense matrix reduced constraint by constraint. Read in the rationals each has a closed form: `frobenius` of a
matrix does not see that an array was made symmetric, because the matrix is (`innerAlong_symmetrised`), and the moment matrix is
linear in the multipliers (`sum_momentCell`).

Together these give the Lagrangian identity, for every program, every array and all multipliers: the two objectives differ by the
inner product of moment matrix and array and by the multipliers of what the constraints miss. Weak duality is the case in which the
constraints hold and both matrices are positive semidefinite (`lagrangian_weak_duality`).
-/
import Mathlib
import MomentProgram.Program.Duality
import MomentProgram.Proofs.Array.Tensor
import MomentProgram.Proofs.Outcome
import MomentProgram.Proofs.Symmetric.Inner

namespace MomentProgram

/-! ## The symmetric part of an array -/

section Symmetrised

variable {d : ℕ}

/-- a square array has a symmetric part of its shape, whatever the number type -/
theorem symmetrised_ofGrid {α : Type} [Add α] [Mul α] [Scalar α] (X : Grid d α) :
    ∃ S, Program.symmetrised (.ofGrid X) = .ok S ∧ S.shape = [d, d] ∧
      ∀ fallback (r c : Fin d), S.get (Scalar.half * fallback) [r.val, c.val] = Scalar.half * (X.get r c + X.get c r) := by
  obtain ⟨t, ht, hshape, hget⟩ :=
    Tensor.zipFitted?_same (· + ·) (Tensor.ofGrid X) ((Tensor.ofGrid X).transpose Scalar.zero) Scalar.zero Scalar.zero rfl
  refine ⟨t.map fun x => Scalar.half * x, ?_, hshape, fun fallback r c => ?_⟩
  · simp only [Program.symmetrised, Program.symmetrised?, ht, Option.map_some]
  · rw [Tensor.get_map, hget fallback _ (inside_pair r c), Tensor.get_ofGrid, Tensor.get_transpose_ofGrid]

theorem symmetrised_exactly (X : Grid d ℚ) : ∃ S, Program.symmetrised (.ofGrid X) = .ok S ∧ S.shape = [d, d] ∧
    ∀ r c : Fin d, S.get 0 [r.val, c.val] = 1 / 2 * (X.get r c + X.get c r) := by
  obtain ⟨S, hS, hshape, hget⟩ := symmetrised_ofGrid X
  refine ⟨S, hS, hshape, fun r c => ?_⟩
  have hcell := hget 0 r c
  rwa [mul_zero, scalar_half_rat] at hcell

/-- a symmetric matrix does not see whether an array was made symmetric -/
theorem sum_cell_symmetrised (A : SymMatrix ℚ) (X : Grid d ℚ) :
    ∑ r : Fin d, ∑ c : Fin d, A.cell r c * (1 / 2 * (X.get r c + X.get c r)) = A.frobenius X := by
  have hswap : ∑ r : Fin d, ∑ c : Fin d, A.cell r c * X.get c r = A.frobenius X := by
    rw [Finset.sum_comm, SymMatrix.frobenius]
    exact Finset.sum_congr rfl fun r _ => Finset.sum_congr rfl fun c _ => by rw [A.cell_comm c r]
  calc ∑ r : Fin d, ∑ c : Fin d, A.cell r c * (1 / 2 * (X.get r c + X.get c r))
      = 1 / 2 * (A.frobenius X + ∑ r : Fin d, ∑ c : Fin d, A.cell r c * X.get c r) := by
        simp only [SymMatrix.frobenius, Finset.mul_sum, ← Finset.sum_add_distrib]
        exact Finset.sum_congr rfl fun r _ => Finset.sum_congr rfl fun c _ => by ring
    _ = A.frobenius X := by rw [hswap]; ring

theorem innerAlong_symmetrised (A : SymMatrix ℚ) (hA : A.dim = d) {X : Grid d ℚ} {S : Tensor ℚ} (hS : S.shape = [d, d])
    (hget : ∀ r c : Fin d, S.get 0 [r.val, c.val] = 1 / 2 * (X.get r c + X.get c r)) (steps : Steps) :
    A.innerAlong S steps = .ok (A.frobenius X) := by
  rw [A.innerAlong_square S steps hA hS]
  simp only [hget, sum_cell_symmetrised]

end Symmetrised

/-! ## Sums over lists of one length -/

theorem foldl_sub_eq {β : Type} (f : β → ℚ) (l : List β) (a : ℚ) :
    l.foldl (fun acc b => acc - f b) a = a - (l.map f).sum := by
  induction l generalizing a with
  | nil => simp
  | cons b l ih => rw [List.foldl_cons, ih, List.map_cons, List.sum_cons]; ring

/-- a sum of multipliers times differences, taken apart -/
theorem sum_zipWith_mul_sub {β : Type} (f : β → ℚ) (y : List ℚ) (l : List β) (b : List ℚ) (hl : y.length = l.length)
    (hb : b.length = l.length) :
    (List.zipWith (· * ·) y (List.zipWith (· - ·) (l.map f) b)).sum =
      ((y.zip l).map fun p => p.1 * f p.2).sum - (List.zipWith (· * ·) y b).sum := by
  induction l generalizing y b with
  | nil =>
    obtain rfl := List.length_eq_zero_iff.1 hl
    simp
  | cons x l ih =>
    obtain ⟨y₀, y, rfl⟩ := List.exists_cons_of_length_eq_add_one hl
    obtain ⟨b₀, b, rfl⟩ := List.exists_cons_of_length_eq_add_one hb
    simp only [List.length_cons, Nat.add_right_cancel_iff] at hl hb
    simp only [List.map_cons, List.zipWith_cons_cons, List.zip_cons_cons, List.sum_cons, ih y b hl hb]
    ring

theorem sum_zipWith_mul_sub_self (y b : List ℚ) : (List.zipWith (· * ·) y (List.zipWith (· - ·) b b)).sum = 0 := by
  induction b generalizing y with
  | nil => simp
  | cons b₀ b ih =>
    cases y with
    | nil => simp
    | cons y₀ y => simp only [List.zipWith_cons_cons, List.sum_cons, ih y, sub_self, mul_zero, add_zero]

namespace Program

theorem dot_eq_sum (x y : List ℚ) : dot x y = (List.zipWith (· * ·) x y).sum := by
  unfold dot
  split
  case h_1 p hp => rw [hp]; simp
  case h_2 => rw [foldl_add_eq, scalar_zero_rat, zero_add]

/-! ## Moment matrices cell by cell -/

section Cells

variable {α : Type} [Sub α] [Mul α] [Scalar α] (P : Program α)

theorem momentMatrix_of_length {y : List α} (hy : y.length = P.numConstraints) :
    P.momentMatrix y = .ok (.ofFn fun r c => P.momentCell y r c) := by
  rw [momentMatrix, if_neg (not_not.2 hy)]

theorem momentMatrix_of_length_ne {y : List α} (hy : y.length ≠ P.numConstraints) : P.momentMatrix y = .error .momentMatrixLength :=
  if_pos hy

variable {P}

/-- **A moment cell depends on one cell of every matrix.** Whatever the number type, two programs that agree there, matrix by matrix, have
equal moments in these cells. -/
theorem momentCell_congr {Q : Program α} {r c r' c' : ℕ} (hfixed : Q.fixed.cell r' c' = P.fixed.cell r c)
    (hconstraints : List.Forall₂ (fun B A => B.cell r' c' = A.cell r c) Q.constraints P.constraints) (y : List α) :
    Q.momentCell y r' c' = P.momentCell y r c := by
  have hfold : ∀ Bs As : List (SymMatrix α), List.Forall₂ (fun B A => B.cell r' c' = A.cell r c) Bs As → ∀ (y : List α) (a : α),
      (y.zip Bs).foldl (fun acc p => acc - p.1 * p.2.cell r' c') a = (y.zip As).foldl (fun acc p => acc - p.1 * p.2.cell r c) a := by
    intro Bs As h
    induction h with
    | nil => intro y a; rw [List.zip_nil_right]; rfl
    | cons hcell _ ih =>
      intro y a
      cases y with
      | nil => rfl
      | cons y₀ y => rw [List.zip_cons_cons, List.zip_cons_cons, List.foldl_cons, List.foldl_cons, ih, hcell]
  rw [momentCell, momentCell, hfold _ _ hconstraints, hfixed]

end Cells

/-! ## The four checks in closed form -/

variable (P : Program ℚ)

theorem applyConstraints_ofGrid (X : Grid P.dim ℚ) :
    P.applyConstraints (.ofGrid X) = .ok (P.constraints.map fun A => A.frobenius X) := by
  obtain ⟨S, hS, hshape, hget⟩ := symmetrised_exactly X
  refine Outcome.bind_ok.2 ⟨S, hS, Outcome.mapM_of_ok fun A hA => ?_⟩
  exact innerAlong_symmetrised A (P.constraint_dim A hA) hshape hget _

theorem primalObjective_ofGrid (X : Grid P.dim ℚ) : P.primalObjective (.ofGrid X) = .ok (P.offset + P.fixed.frobenius X) := by
  obtain ⟨S, hS, hshape, hget⟩ := symmetrised_exactly X
  refine Outcome.bind_ok.2 ⟨S, hS, Outcome.bind_ok.2 ⟨P.fixed.frobenius X, ?_, rfl⟩⟩
  exact innerAlong_symmetrised P.fixed P.fixed_dim hshape hget _

theorem dualObjective_of_length {y : List ℚ} (hy : y.length = P.numConstraints) :
    P.dualObjective y = .ok (P.offset + (List.zipWith (· * ·) y P.bounds).sum) := by
  rw [dualObjective, if_neg (not_not.2 hy), dot_eq_sum]

theorem momentCell_eq (y : List ℚ) (r c : ℕ) :
    P.momentCell y r c = P.fixed.cell r c - ((y.zip P.constraints).map fun p => p.1 * p.2.cell r c).sum :=
  foldl_sub_eq (fun p : ℚ × SymMatrix ℚ => p.1 * p.2.cell r c) _ _

/-- weighted matrices have the weighted sum of their inner products -/
theorem sum_weighted_cells {d : ℕ} (l : List (ℚ × SymMatrix ℚ)) (X : Grid d ℚ) :
    ∑ r : Fin d, ∑ c : Fin d, (l.map fun p => p.1 * p.2.cell r c).sum * X.get r c = (l.map fun p => p.1 * p.2.frobenius X).sum := by
  induction l with
  | nil => simp
  | cons p l ih =>
    simp only [List.map_cons, List.sum_cons, add_mul, Finset.sum_add_distrib, ih, SymMatrix.frobenius, Finset.mul_sum, mul_assoc]

/-- **The moment matrix is linear in the multipliers.** -/
theorem sum_momentCell (y : List ℚ) (X : Grid P.dim ℚ) :
    ∑ r : Fin P.dim, ∑ c : Fin P.dim, P.momentCell y r c * X.get r c =
      P.fixed.frobenius X - ((y.zip P.constraints).map fun p => p.1 * p.2.frobenius X).sum := by
  simp only [momentCell_eq, sub_mul, Finset.sum_sub_distrib, sum_weighted_cells]
  rfl

end Program

/-! ## Weak duality -/

/-- a matrix whose form is not negative on any vector has a nonnegative inner product with a sum of products `v vᵀ` -/
theorem inner_nonneg_of_products {d : ℕ} {M X : Grid d ℚ} (hM : ∀ v : Fin d → ℚ, 0 ≤ ∑ r, ∑ c, v r * M.get r c * v c)
    {vs : List (Fin d → ℚ)} (hX : ∀ r c, X.get r c = (vs.map fun v => v r * v c).sum) :
    0 ≤ ∑ r, ∑ c, M.get r c * X.get r c := by
  simp only [hX]
  clear hX
  induction vs with
  | nil => simp
  | cons v vs ih =>
    simp only [List.map_cons, List.sum_cons, mul_add, Finset.sum_add_distrib]
    refine add_nonneg ?_ ih
    refine (hM v).trans_eq (Finset.sum_congr rfl fun r _ => Finset.sum_congr rfl fun c _ => ?_)
    ring

/-- **The Lagrangian identity and weak duality.** For every program with rational data, as a program of doubles is when it is read
exactly, every square array of its dimension, symmetric or not, and as many multipliers as constraints, all four checks have results, and
the objectives differ by the inner product of moment matrix and array plus the multipliers times what the constraints miss. If the
constraints hold, the array is a sum of products `v vᵀ` and the moment matrix is positive semidefinite, the dual objective is at most the
primal one. -/
theorem lagrangian_weak_duality (P : Program ℚ) (X : Grid P.dim ℚ) (y : List ℚ) (hy : y.length = P.numConstraints) :
    ∃ primal dual M values, P.primalObjective (.ofGrid X) = .ok primal ∧ P.dualObjective y = .ok dual ∧
      P.momentMatrix y = .ok M ∧ P.applyConstraints (.ofGrid X) = .ok values ∧
      values.length = y.length ∧ P.bounds.length = y.length ∧
      primal - dual = ∑ r, ∑ c, M.get r c * X.get r c + (List.zipWith (· * ·) y (List.zipWith (· - ·) values P.bounds)).sum ∧
      (values = P.bounds → (∃ vs : List (Fin P.dim → ℚ), ∀ r c, X.get r c = (vs.map fun v => v r * v c).sum) →
        (∀ v : Fin P.dim → ℚ, 0 ≤ ∑ r, ∑ c, v r * M.get r c * v c) → dual ≤ primal) := by
  have hbounds : P.bounds.length = P.constraints.length := P.length_eq
  have hidentity : P.offset + P.fixed.frobenius X - (P.offset + (List.zipWith (· * ·) y P.bounds).sum) =
      ∑ r : Fin P.dim, ∑ c : Fin P.dim, P.momentCell y r c * X.get r c +
        (List.zipWith (· * ·) y (List.zipWith (· - ·) (P.constraints.map fun A => A.frobenius X) P.bounds)).sum := by
    rw [P.sum_momentCell, sum_zipWith_mul_sub _ _ _ _ hy hbounds]
    ring
  refine ⟨_, _, _, _, P.primalObjective_ofGrid X, P.dualObjective_of_length hy, P.momentMatrix_of_length hy,
    P.applyConstraints_ofGrid X, by rw [List.length_map]; exact hy.symm, hbounds.trans hy.symm, ?_, ?_⟩
  · simp only [Grid.get_ofFn]
    exact hidentity
  · rintro hvalues ⟨vs, hX⟩ hM
    have hinner := inner_nonneg_of_products hM hX
    simp only [Grid.get_ofFn] at hinner
    rw [hvalues, sum_zipWith_mul_sub_self, add_zero] at hidentity
    linarith

/-- the identity matrix of extent two, one constraint on its mixed cell, and the offset 3 -/
def mixedProgram : Program ℚ where
  dim := 2
  offset := 3
  fixed := ⟨2, [⟨0, 0, 1⟩, ⟨1, 1, 1⟩], by decide, by decide, by decide, by decide⟩
  constraints := [⟨2, [⟨1, 0, 1⟩], by decide, by decide, by decide, by decide⟩]
  bounds := [2]
  dim_pos := by decide
  fixed_dim := rfl
  constraint_dim := by simp
  length_eq := rfl
  bounds_finite := fun _ _ => rfl
  offset_finite := rfl

/-- at the matrix of ones and the multiplier one half both hypotheses of weak duality hold -/
theorem lagrangian_weak_duality_mixed : ∃ primal dual,
    mixedProgram.primalObjective (.ofGrid (.ofFn fun _ _ : Fin mixedProgram.dim => 1)) = .ok primal ∧
      mixedProgram.dualObjective [1 / 2] = .ok dual ∧ dual ≤ primal := by
  let X : Grid mixedProgram.dim ℚ := .ofFn fun _ _ => 1
  obtain ⟨primal, dual, M, values, hprimal, hdual, hM, hvalues, -, -, -, hweak⟩ :=
    lagrangian_weak_duality mixedProgram X [1 / 2] rfl
  have hbounds : (mixedProgram.applyConstraints (.ofGrid X)).toOption = some mixedProgram.bounds := by decide +kernel
  have hmoments : (mixedProgram.momentMatrix [1 / 2]).toOption =
      some (.ofFn fun r c => if r = c then 1 else -1 / 2) := by decide +kernel
  rw [hvalues] at hbounds
  rw [hM] at hmoments
  obtain rfl := Option.some.inj hmoments
  refine ⟨primal, dual, hprimal, hdual, hweak (Option.some.inj hbounds) ⟨[fun _ => 1], ?_⟩ ?_⟩
  · intro r c
    simp [X]
  · intro (v : Fin 2 → ℚ)
    show 0 ≤ ∑ r : Fin 2, ∑ c : Fin 2, v r * (Grid.ofFn fun r c : Fin 2 => if r = c then (1 : ℚ) else -1 / 2).get r c * v c
    have hsum : ∑ r : Fin 2, ∑ c : Fin 2, v r * (Grid.ofFn fun r c : Fin 2 => if r = c then (1 : ℚ) else -1 / 2).get r c * v c =
        ((v 0 - v 1) ^ 2 + v 0 ^ 2 + v 1 ^ 2) / 2 := by
      simp [Fin.sum_univ_two]
      ring
    rw [hsum]
    positivity

end MomentProgram
