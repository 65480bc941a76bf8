/-
The inner product meets every cell of the common shape.

The inner product of a sparse matrix with an array is computed by the shape of the array: one entry alone, a row, a column, a square,
any array beside a matrix of dimension one, an array of more than two axes. The reference is dense and the same for all of them: the
matrix as a full array times the array, entry by entry over the common shape (`meeting`), all products added.

Beside a matrix of more than one cell a short array takes the shape of the matrix (`fitted?_square_eq`) and is read at the stored cells
alone (`products?_stored`), where nothing is lost as the other cells are zero (`sum_stored`). Beside a single cell it keeps its own
order (`fitted?_cell`), and each entry meets the number that the matrix is (`sum_cell`). Longer arrays meet every cell, in an order that
the sum does not see (`sum_long`). Together: `innerAlong_of_fitted`; and there are products exactly if the shapes fit
(`products?_eq_none_iff`).

- `inner_meets_every_cell`: the inner product in exact arithmetic and the shapes it refuses.
- `inner_meets_every_cell_axes`: a row, an array of three axes and a shape that does not fit.
-/
import MomentProgram.Proofs.Array.Layout
import MomentProgram.Proofs.Symmetric.Cells
import MomentProgram.Symmetric.Inner

namespace MomentProgram

/-! ## Short shapes beside a square -/

theorem short_shape {s : List ℕ} (h : s.length ≤ 2) : s = [] ∨ (∃ n, s = [n]) ∨ ∃ m n, s = [m, n] := by
  match s, h with
  | [], _ => exact .inl rfl
  | [n], _ => exact .inr (.inl ⟨n, rfl⟩)
  | [m, n], _ => exact .inr (.inr ⟨m, n, rfl⟩)

theorem short_shape_single {s : List ℕ} (h : s.length ≤ 2) (hsingle : shapeSize s = 1) : s = [] ∨ s = [1] ∨ s = [1, 1] := by
  rcases short_shape h with rfl | ⟨n, rfl⟩ | ⟨m, n, rfl⟩
  · exact .inl rfl
  · have hn : n = 1 := by simpa [shapeSize] using hsingle
    exact .inr (.inl (by rw [hn]))
  · obtain ⟨hm, hn⟩ : m = 1 ∧ n = 1 := by simpa [shapeSize] using hsingle
    exact .inr (.inr (by rw [hm, hn]))

/-- an extent of one repeats -/
theorem fittedExtent?_one_right (d : ℕ) : fittedExtent? d 1 = some d := by
  unfold fittedExtent?
  grind

theorem fittedExtent?_one_left (n : ℕ) : fittedExtent? 1 n = some n := by
  unfold fittedExtent?
  grind

/-- beside an extent other than one only the same extent and one fit -/
theorem fittedExtent?_of_ne_one {d : ℕ} (hd : d ≠ 1) (n : ℕ) : fittedExtent? d n = if n = d ∨ n = 1 then some d else none := by
  unfold fittedExtent?
  grind

theorem fitted?_square_vector (d n : ℕ) : fitted? [d, d] [n] = (fittedExtent? d n).map fun k => [d, k] := by
  cases h : fittedExtent? d n <;> simp [fitted?, fittedReversed?, h]

theorem fitted?_square_matrix (d m n : ℕ) :
    fitted? [d, d] [m, n] = (fittedExtent? d n).bind fun k => (fittedExtent? d m).map fun j => [j, k] := by
  cases h : fittedExtent? d n <;> cases h' : fittedExtent? d m <;> simp [fitted?, fittedReversed?, h, h']

theorem fitted?_square_single {d : ℕ} {s : List ℕ} (h : s.length ≤ 2) (hsingle : shapeSize s = 1) :
    fitted? [d, d] s = some [d, d] := by
  rcases short_shape_single h hsingle with rfl | rfl | rfl
  · rfl
  · rw [fitted?_square_vector, fittedExtent?_one_right]
    rfl
  · rw [fitted?_square_matrix, fittedExtent?_one_right]
    rfl

/-- what fits beside a square of more than one cell takes its shape -/
theorem fitted?_square_eq {d : ℕ} (hd : d ≠ 1) {s u : List ℕ} (h : s.length ≤ 2) (hfit : fitted? [d, d] s = some u) : u = [d, d] := by
  rcases short_shape h with rfl | ⟨n, rfl⟩ | ⟨m, n, rfl⟩
  · exact (Option.some.inj hfit).symm
  · rw [fitted?_square_vector, fittedExtent?_of_ne_one hd] at hfit
    grind
  · rw [fitted?_square_matrix, fittedExtent?_of_ne_one hd, fittedExtent?_of_ne_one hd] at hfit
    grind

/-- beside a single cell an array is read in its own order -/
theorem fitted?_cell {s : List ℕ} (h : s.length ≤ 2) :
    ∃ u, fitted? [1, 1] s = some u ∧ u.length = 2 ∧ (indices u).map (project s) = indices s := by
  have hsame : ∀ t, (indices t).map (project t) = indices t := fun t =>
    (List.map_congr_left fun ix hix => project_same (mem_indices.1 hix)).trans (List.map_id' _)
  rcases short_shape h with rfl | ⟨n, rfl⟩ | ⟨m, n, rfl⟩
  · exact ⟨[1, 1], rfl, rfl, rfl⟩
  · refine ⟨[1, n], by rw [fitted?_square_vector, fittedExtent?_one_left]; rfl, rfl, ?_⟩
    -- the missing axis is put in front and dropped again
    have hfront : indices [1, n] = (indices [n]).map (0 :: ·) := by simp [indices]
    rw [hfront, List.map_map]
    refine Eq.trans (List.map_congr_left fun ix hix => ?_) (hsame [n])
    obtain ⟨i, rfl⟩ := List.length_eq_one_iff.1 (mem_indices.1 hix).length_eq
    rfl
  · exact ⟨[m, n], by rw [fitted?_square_matrix, fittedExtent?_one_left, fittedExtent?_one_left]; rfl, rfl, hsame _⟩

/-! ## Sums over all multi-indices -/

theorem sum_indices_cons (n : ℕ) (s : List ℕ) (f : List ℕ → ℚ) :
    ((indices (n :: s)).map f).sum = ∑ i : Fin n, ((indices s).map fun ix => f (i.val :: ix)).sum := by
  rw [indices, List.map_flatMap, List.flatMap_def, List.sum_flatten, List.map_map, ← List.map_coe_finRange_eq_range,
    List.map_map, Fin.sum_univ_def]
  simp [Function.comp_def]

theorem sum_indices_square (d : ℕ) (f : List ℕ → ℚ) :
    ((indices [d, d]).map f).sum = ∑ r : Fin d, ∑ c : Fin d, f [r.val, c.val] := by
  rw [sum_indices_cons]
  refine Finset.sum_congr rfl fun r _ => ?_
  rw [sum_indices_cons]
  simp [indices]

namespace SymMatrix

section Products

variable {α : Type} [Add α] [Mul α] [Scalar α] (A : SymMatrix α) (X : Tensor α) (steps : Steps)

/-- **Short arrays that take the shape of the matrix are read at the stored cells alone,** each behind its own place. -/
theorem products?_stored (hshort : X.shape.length ≤ 2) (h : shapeSize X.shape = 1 ∨ A.dim ≠ 1) :
    A.products? X steps =
      (fitted? [A.dim, A.dim] X.shape).map fun _ => A.storedProducts X fun t => project X.shape [t.row, t.col] := by
  have hlong : ¬2 < X.shape.length := by omega
  by_cases hsize : shapeSize X.shape = 1
  · rw [products?, if_neg hlong, if_pos hsize, fitted?_square_single hshort hsize, Option.map_some]
    rcases short_shape_single hshort hsize with hX | hX | hX <;> rw [hX] <;> rfl
  · have hd : A.dim ≠ 1 := h.resolve_left hsize
    simp only [products?, if_neg hlong, if_neg hsize, if_neg hd]
    rcases short_shape hshort with hX | ⟨n, hX⟩ | ⟨m, n, hX⟩
    · exact absurd (by rw [hX]; rfl) hsize
    · rw [hX, fitted?_square_vector, fittedExtent?_of_ne_one hd]
      have hn : n ≠ 1 := by simpa [hX, shapeSize] using hsize
      by_cases hnd : n = A.dim <;> simp [hn, hnd, hd, project]
    · rw [hX, fitted?_square_matrix, fittedExtent?_of_ne_one hd, fittedExtent?_of_ne_one hd]
      by_cases hfits : (m = A.dim ∨ m = 1) ∧ (n = A.dim ∨ n = 1)
      · obtain ⟨rfl | rfl, rfl | rfl⟩ := hfits
        · simp [hd, project]
        · simp [hd, Ne.symm hd, project]
        · simp [hd, Ne.symm hd, project]
        · exact absurd (by rw [hX]; rfl) hsize
      · have hrow : n = A.dim ∨ n = 1 → ¬(m = A.dim ∨ m = 1) := fun hn hm => hfits ⟨hm, hn⟩
        have hothers : ¬(m = A.dim ∧ n = A.dim) ∧ ¬(m = 1 ∧ n = A.dim) ∧ ¬(m = A.dim ∧ n = 1) := by tauto
        by_cases hn : n = A.dim ∨ n = 1
        · simp [hn, hrow hn, hothers]
        · simp [hn, hothers]

/-- **A matrix of dimension one is a number** and meets every entry of a short array. -/
theorem products?_cell (hshort : X.shape.length ≤ 2) (hsize : shapeSize X.shape ≠ 1) (hd : A.dim = 1) :
    A.products? X steps = some (X.toList.map fun x => blockSum (A.cells.map (·.value)) * x) := by
  rw [products?, if_neg (by omega), if_neg hsize, if_pos hd]

/-- **Longer arrays meet every cell,** each of them in the order in which the products lie. -/
theorem products?_long (hlong : 2 < X.shape.length) : A.products? X steps = A.allProducts? X steps := by
  rw [products?, if_pos hlong]

/-- **There are products exactly if the shapes fit.** -/
theorem products?_eq_none_iff : A.products? X steps = none ↔ fitted? [A.dim, A.dim] X.shape = none := by
  by_cases hlong : 2 < X.shape.length
  · rw [products?_long A X steps hlong, allProducts?, Option.map_eq_none_iff, Tensor.zipFitted?, Option.map_eq_none_iff]
    rfl
  · have hshort : X.shape.length ≤ 2 := by omega
    by_cases hcell : shapeSize X.shape ≠ 1 ∧ A.dim = 1
    · obtain ⟨u, hu, -⟩ := fitted?_cell hshort
      rw [products?_cell A X steps hshort hcell.1 hcell.2, hcell.2, hu]
      simp
    · rw [products?_stored A X steps hshort (by tauto), Option.map_eq_none_iff]

theorem innerAlong_eq_error {e : Fault} :
    A.innerAlong X steps = .error e ↔ e = .incompatibleShapes ∧ ¬Fits [A.dim, A.dim] X.shape := by
  rw [← fitted?_eq_none_iff, ← A.products?_eq_none_iff X steps, innerAlong]
  cases A.products? X steps with
  | none => simp [eq_comm]
  | some ps => simp

end Products

/-! ## The sum of all products -/

section Exact

/-- the product of what stands in a full matrix and in an array behind a multi-index of their common shape -/
def meeting (A : SymMatrix ℚ) (X : Tensor ℚ) (ix : List ℕ) : ℚ :=
  (Tensor.ofGrid (A.dense A.dim)).get 0 (project [A.dim, A.dim] ix) * X.get 0 (project X.shape ix)

variable (A : SymMatrix ℚ) (X : Tensor ℚ) (steps : Steps)

theorem meeting_eq {ix : List ℕ} {r c : Fin A.dim} (h : project [A.dim, A.dim] ix = [r.val, c.val]) :
    A.meeting X ix = A.cell r c * X.get 0 (project X.shape ix) := by
  rw [meeting, h, Tensor.get_ofGrid, get_dense]

theorem sum_stored : (A.storedProducts X fun t => project X.shape [t.row, t.col]).sum =
    ((indices [A.dim, A.dim]).map (A.meeting X)).sum := by
  calc (A.storedProducts X fun t => project X.shape [t.row, t.col]).sum
      = ∑ r : Fin A.dim, ∑ c : Fin A.dim, A.cell r c * X.get 0 (project X.shape [r.val, c.val]) :=
        A.sum_cells fun r c => X.get 0 (project X.shape [r, c])
    _ = ∑ r : Fin A.dim, ∑ c : Fin A.dim, A.meeting X [r.val, c.val] :=
        Finset.sum_congr rfl fun r _ => Finset.sum_congr rfl fun c _ => (A.meeting_eq X (project_same (inside_pair r c))).symm
    _ = ((indices [A.dim, A.dim]).map (A.meeting X)).sum := (sum_indices_square _ _).symm

theorem sum_cell {u : List ℕ} (hd : A.dim = 1) (hu : u.length = 2)
    (hread : (indices u).map (project X.shape) = indices X.shape) :
    (X.toList.map fun x => blockSum (A.cells.map (·.value)) * x).sum = ((indices u).map (A.meeting X)).sum := by
  have hfirst : 0 < A.dim := by omega
  have htotal : blockSum (A.cells.map (·.value)) = A.cell 0 0 := by
    have hsum := A.sum_cells fun _ _ => 1
    simp only [mul_one] at hsum
    have hone : ∀ d, d = 1 → ∑ r : Fin d, ∑ c : Fin d, A.cell r c = A.cell 0 0 := by
      rintro _ rfl
      simp
    rw [blockSum_eq_sum, hsum, hone _ hd]
  have hmeeting : ∀ ix ∈ indices u, A.meeting X ix = A.cell 0 0 * X.get 0 (project X.shape ix) := by
    intro ix hix
    obtain ⟨i, j, rfl⟩ : ∃ i j, ix = [i, j] := List.length_eq_two.1 ((mem_indices.1 hix).length_eq.trans hu)
    have hplace : project [A.dim, A.dim] [i, j] = [0, 0] := by rw [hd]; rfl
    exact A.meeting_eq X (r := ⟨0, hfirst⟩) (c := ⟨0, hfirst⟩) hplace
  rw [htotal, List.map_congr_left hmeeting, ← X.map_get_indices 0, ← hread, List.map_map, List.map_map]
  rfl

theorem sum_long {s : List ℕ} (h : fitted? [A.dim, A.dim] X.shape = some s) :
    ∃ ps, A.allProducts? X steps = some ps ∧ ps.sum = ((indices s).map (A.meeting X)).sum := by
  obtain ⟨t, ht, rfl, hget⟩ := Tensor.zipFitted?_of_fitted (· * ·) (.ofGrid (A.dense A.dim)) X 0 0 h
  refine ⟨_, by rw [allProducts?, scalar_zero_rat, ht]; rfl, ?_⟩
  rw [((orderedIndices_perm (axisOrder_perm _ _)).map _).sum_eq]
  congr 1
  exact List.map_congr_left fun ix hix => hget 0 ix (mem_indices.1 hix)

/-- **The exact inner product meets every cell of the common shape once,** in whatever steps the array lies. -/
theorem innerAlong_of_fitted {s : List ℕ} (h : fitted? [A.dim, A.dim] X.shape = some s) :
    A.innerAlong X steps = .ok ((indices s).map (A.meeting X)).sum := by
  suffices hsum : ∃ ps, A.products? X steps = some ps ∧ ps.sum = ((indices s).map (A.meeting X)).sum by
    obtain ⟨ps, hps, hsum⟩ := hsum
    rw [innerAlong, hps]
    simp only [blockSum_eq_sum, hsum]
  by_cases hlong : 2 < X.shape.length
  · rw [products?_long A X steps hlong]
    exact A.sum_long X steps h
  have hshort : X.shape.length ≤ 2 := by omega
  by_cases hcell : shapeSize X.shape ≠ 1 ∧ A.dim = 1
  · obtain ⟨u, hu, hlength, hread⟩ := fitted?_cell hshort
    rw [hcell.2, hu, Option.some.injEq] at h
    subst h
    exact ⟨_, products?_cell A X steps hshort hcell.1 hcell.2, A.sum_cell X hcell.2 hlength hread⟩
  · have hs : s = [A.dim, A.dim] := by
      by_cases hsize : shapeSize X.shape = 1
      · rw [fitted?_square_single hshort hsize, Option.some.injEq] at h
        exact h.symm
      · exact fitted?_square_eq (by tauto) hshort h
    refine ⟨_, by rw [products?_stored A X steps hshort (by tauto), h]; rfl, ?_⟩
    rw [hs, A.sum_stored X]

/-- **The inner product with an array of the same extent meets every cell once,** in whatever steps the array lies. -/
theorem innerAlong_square {d : ℕ} (hA : A.dim = d) (hX : X.shape = [d, d]) :
    A.innerAlong X steps = .ok (∑ r : Fin d, ∑ c : Fin d, A.cell r c * X.get 0 [r.val, c.val]) := by
  subst hA
  rw [A.innerAlong_of_fitted X steps (by rw [hX]; exact fitted?_same _), sum_indices_square]
  refine congrArg Except.ok (Finset.sum_congr rfl fun r _ => Finset.sum_congr rfl fun c _ => ?_)
  rw [A.meeting_eq X (project_same (inside_pair r c)), hX, project_same (inside_pair r c)]

end Exact

end SymMatrix

/-! ## Doubles read exactly -/

theorem Tensor.get_exactly (t : Tensor Float) (ix : List ℕ) : (t.map exactValue).get 0 ix = exactValue (t.get 0.0 ix) := by
  rw [← exactValue_zero, t.get_map]

/-- the exact values of a grid of doubles, as a matrix -/
def Grid.exactMatrix {d : ℕ} (g : Grid d Float) : Matrix (Fin d) (Fin d) ℚ := .of fun r c => exactValue (g.get r c)

namespace SymMatrix

theorem cell_exactly (A : SymMatrix Float) (r c : ℕ) : (A.map exactValue).cell r c = exactValue (A.cell r c) := by
  rw [cell, cell, storedAt_map]
  cases A.storedAt r c with
  | none => exact exactValue_zero.symm
  | some v => exact (exactValue_fromZero v).symm

theorem dense_exactly (A : SymMatrix Float) (d : ℕ) : (A.map exactValue).dense d = (A.dense d).map exactValue :=
  Grid.ext fun r c => by rw [Grid.get_map, get_dense, get_dense, cell_exactly]

theorem meeting_exactly (A : SymMatrix Float) (X : Tensor Float) (ix : List ℕ) :
    (A.map exactValue).meeting (X.map exactValue) ix =
      exactValue ((Tensor.ofGrid (A.dense A.dim)).get 0.0 (project [A.dim, A.dim] ix)) *
        exactValue (X.get 0.0 (project X.shape ix)) := by
  have hdense : Tensor.ofGrid ((A.map exactValue).dense A.dim) = (Tensor.ofGrid (A.dense A.dim)).map exactValue := by
    rw [dense_exactly, Tensor.map_ofGrid]
  rw [← Tensor.get_exactly, ← Tensor.get_exactly, ← hdense]
  rfl

theorem inner_square_exactly (A : SymMatrix Float) (G : Grid A.dim Float) :
    (A.map exactValue).inner ((Tensor.ofGrid G).map exactValue) =
      .ok (∑ r, ∑ c, (A.dense A.dim).exactMatrix r c * G.exactMatrix r c) := by
  rw [inner, innerAlong_square (d := A.dim) (A.map exactValue) _ _ rfl rfl]
  refine congrArg Except.ok (Finset.sum_congr rfl fun r _ => Finset.sum_congr rfl fun c _ => ?_)
  rw [Tensor.get_exactly, Tensor.get_ofGrid, cell_exactly, Grid.exactMatrix, Grid.exactMatrix, Matrix.of_apply, Matrix.of_apply,
    dense, Grid.get_ofFn]

end SymMatrix

/-- **The sparse inner product is the dense one.** For every matrix of doubles and every array of any shape, the inner product is
refused, with an error of value, exactly if the shape of the array does not fit that of the matrix. Otherwise, read in exact
arithmetic, it is the sum over all multi-indices of the common shape of what stands in the full matrix times what stands in the array,
in whatever steps the array lies. With a square array it is the trace of the full matrix times the transposed array. -/
theorem inner_meets_every_cell (A : SymMatrix Float) (X : Tensor Float) :
    ((∃ e, A.inner X = .error e) ↔ ¬Fits [A.dim, A.dim] X.shape) ∧
      (∀ e, A.inner X = .error e → e.kind = .value) ∧
      (∀ s, fitted? [A.dim, A.dim] X.shape = some s → ∀ steps,
        (A.map exactValue).innerAlong (X.map exactValue) steps = (A.map exactValue).inner (X.map exactValue) ∧
        (A.map exactValue).inner (X.map exactValue) = .ok ((indices s).map fun ix =>
          exactValue ((Tensor.ofGrid (A.dense A.dim)).get 0.0 (project [A.dim, A.dim] ix)) *
            exactValue (X.get 0.0 (project X.shape ix))).sum) ∧
      ∀ G : Grid A.dim Float, X = .ofGrid G →
        (A.map exactValue).inner (X.map exactValue) =
            .ok (∑ r, ∑ c, (A.dense A.dim).exactMatrix r c * G.exactMatrix r c) ∧
          ∑ r, ∑ c, (A.dense A.dim).exactMatrix r c * G.exactMatrix r c =
            ((A.dense A.dim).exactMatrix * G.exactMatrix.transpose).trace := by
  refine ⟨?_, fun e he => ?_, fun s hs steps => ?_, ?_⟩
  · simp only [SymMatrix.inner, SymMatrix.innerAlong_eq_error, exists_eq_left]
  · obtain ⟨rfl, -⟩ := (A.innerAlong_eq_error X _).1 he
    rfl
  · have hexact : (A.map exactValue).meeting (X.map exactValue) = _ := funext (A.meeting_exactly X)
    have hinner := fun along => (A.map exactValue).innerAlong_of_fitted (X.map exactValue) along hs
    rw [hexact] at hinner
    exact ⟨(hinner steps).trans (hinner _).symm, hinner _⟩
  · rintro G rfl
    refine ⟨A.inner_square_exactly G, ?_⟩
    simp only [Matrix.trace, Matrix.diag_apply, Matrix.mul_apply, Matrix.transpose_apply]

/-- 2 in the first cell and -1/2 beside the diagonal -/
def cornerMatrix : SymMatrix Float := ⟨2, [⟨0, 0, 2.0⟩, ⟨1, 0, -0.5⟩], by decide, by decide, by decide, by decide⟩

/-- a row meets both rows of the matrix, an array of three axes meets the matrix twice, and three entries do not fit two -/
theorem inner_meets_every_cell_axes :
    (cornerMatrix.map exactValue).inner ((Tensor.ofVector [1.0, 4.0]).map exactValue) = .ok (-1 / 2) ∧
      (cornerMatrix.map exactValue).inner (Tensor.map exactValue ⟨[2, 1, 2], #[1.0, 2.0, 3.0, 4.0], rfl⟩) = .ok 3 ∧
      ∃ e, cornerMatrix.inner (.ofVector [1.0, 2.0, 3.0]) = .error e ∧ e.kind = .value := by
  refine ⟨?_, ?_, ?_⟩
  · obtain ⟨-, hsum⟩ := (inner_meets_every_cell cornerMatrix (.ofVector [1.0, 4.0])).2.2.1 [2, 2] (by decide) []
    rw [hsum]
    decide +kernel
  · obtain ⟨-, hsum⟩ :=
      (inner_meets_every_cell cornerMatrix ⟨[2, 1, 2], #[1.0, 2.0, 3.0, 4.0], rfl⟩).2.2.1 [2, 2, 2] (by decide) []
    rw [hsum]
    decide +kernel
  · have hmisfit : ¬Fits [2, 2] [3] := fun h => absurd (h 0 2 3 rfl rfl) (by decide)
    obtain ⟨hrefused, hkind, -⟩ := inner_meets_every_cell cornerMatrix (.ofVector [1.0, 2.0, 3.0])
    obtain ⟨e, he⟩ := hrefused.2 hmisfit
    exact ⟨e, he, hkind e he⟩

end MomentProgram
