/-
The checks of a program read a decoded matrix as the solver does.

A solver knows a matrix by its triples and the primal matrix by its packed triangle: a triple below the diagonal counts twice, one on
it once, each with the number that stands at its place in the triangle. The checks know both as full arrays. `decode` is where the
packed triangle becomes an array, so there the two readings have to meet.

`decode_optimum`, `decode_refused` and `decode_failure` say what is decoded from a status and arrays of any lengths. For a symmetric
array the sum over all stored cells, mirrored ones included, is a weighted sum over the triples alone (`sum_cells_symmetric`), and
every cell of an unpacked array is the number at its place (`getElem?_position`). Together: `frobenius_toGrid`.

- `decoded_primal_agrees`: the checks at the decoded primal matrix are the weighted sums over the triples.
- `decoded_primal_agrees_mixed`: a matrix with one cell below the diagonal.
-/
import Mathlib
import MomentProgram.Solution
import MomentProgram.Proofs.Packed
import MomentProgram.Proofs.Program.Moments

namespace MomentProgram

/-! ## What is decoded -/

section Assembled

variable {α : Type} [Add α] [Mul α] [Scalar α] {bounds y : List α}

theorem assembleOptimum_of_length (offset : α) (X : (d : Nat) × Grid d α) (h : y.length = bounds.length) (reported : Option α) :
    assembleOptimum offset bounds (.ok X) (.ok y) (reported.map .ok) =
      .ok ⟨foldObjective offset bounds y, X.1, X.2, Scalar.one :: y, reported⟩ := by
  change (if y.length ≠ bounds.length then _ else _) = _
  rw [if_neg (not_not.2 h)]
  cases reported <;> rfl

theorem assembleOptimum_refused (offset : α) (X : (d : Nat) × Grid d α) (h : y.length ≠ bounds.length)
    (reported : Option (Outcome α)) :
    assembleOptimum offset bounds (.ok X) (.ok y) reported = .error (.multiplierCount bounds.length y.length) := by
  change (if y.length ≠ bounds.length then _ else _) = _
  rw [if_pos h]
  rfl

end Assembled

namespace Program

variable {α : Type} [Add α] [Mul α] [Scalar α] (P : Program α) {status : Status} {v y : List α}

/-- the optimum of a packed primal matrix and multipliers -/
def optimumAt (v y : List α) (reported : Option α) : Optimum α :=
  ⟨foldObjective P.offset P.bounds y, P.dim, Packed.toGrid P.dim v, Scalar.one :: y, reported⟩

theorem decode_optimum (hs : status.isOptimal = true) (hv : v.length = P.dim * (P.dim + 1) / 2)
    (hy : y.length = P.numConstraints) (reported : Option α) :
    P.decode status (some (.ok v)) (some (.ok y)) (reported.map .ok) = .ok (.optimum (P.optimumAt v y reported)) := by
  have hbounds : y.length = P.bounds.length := hy.trans P.length_eq.symm
  have hunpack : (Except.ok v : Outcome (List α)).bind (unpack (P.dim : Int)) = .ok ⟨P.dim, Packed.toGrid P.dim v⟩ :=
    unpack_natCast P.dim v hv
  unfold decode Status.solution
  rw [if_pos hs]
  simp only [optimumOf, hunpack, assembleOptimum_of_length P.offset _ hbounds]
  rfl

/-- arrays of other lengths are refused -/
theorem decode_refused (hs : status.isOptimal = true)
    (h : ¬(v.length = P.dim * (P.dim + 1) / 2 ∧ y.length = P.numConstraints)) (reported : Option (Outcome α)) :
    ∃ e, P.decode status (some (.ok v)) (some (.ok y)) reported = .error e ∧ e.kind = .value := by
  unfold decode Status.solution
  rw [if_pos hs]
  by_cases hv : v.length = P.dim * (P.dim + 1) / 2
  · have hunpack : (Except.ok v : Outcome (List α)).bind (unpack (P.dim : Int)) = .ok ⟨P.dim, Packed.toGrid P.dim v⟩ :=
      unpack_natCast P.dim v hv
    have hbounds : y.length ≠ P.bounds.length := fun hy => h ⟨hv, hy.trans P.length_eq⟩
    refine ⟨.multiplierCount P.bounds.length y.length, ?_, rfl⟩
    simp only [optimumOf, hunpack, assembleOptimum_refused P.offset _ hbounds]
    rfl
  · have hlength : (v.length : Int) ≠ MomentProgram.packedLength P.dim := by
      rw [packedLength_natCast]
      exact fun hlen => hv (by exact_mod_cast hlen)
    obtain ⟨e, he, hkind⟩ := unpack_refused (P.dim : Int) v (.inr hlength)
    refine ⟨e, ?_, hkind⟩
    have hunpack : (Except.ok v : Outcome (List α)).bind (unpack (P.dim : Int)) = .error e := he
    simp only [optimumOf, hunpack]
    rfl

/-- without an optimal status nothing is read -/
theorem decode_failure (hs : status.isOptimal = false) (packed duals : Option (Outcome (List α))) (reported : Option (Outcome α)) :
    P.decode status packed duals reported = .ok (.failure status.reason) := by
  unfold decode Status.solution
  rw [if_neg (by rw [hs]; exact Bool.false_ne_true)]

end Program

/-! ## Symmetric sums -/

/-- how often a triple stands in the full matrix -/
def Triple.weight {α : Type} (t : Triple α) : ℚ := if t.row = t.col then 1 else 2

namespace SymMatrix

/-- **A symmetric sum over the stored cells is a weighted sum over the triples.** -/
theorem sum_cells_symmetric (A : SymMatrix ℚ) {f : ℕ → ℕ → ℚ} (hf : ∀ r c, f r c = f c r) :
    (A.cells.map fun t => t.value * f t.row t.col).sum = (A.triples.map fun t => t.weight * t.value * f t.row t.col).sum := by
  have hmirrored : ∀ ts : List (Triple ℚ),
      (ts.map fun t => t.value * f t.row t.col).sum +
          (((ts.filter fun t => t.row != t.col).map fun t => (⟨t.col, t.row, t.value⟩ : Triple ℚ)).map
            fun t => t.value * f t.row t.col).sum =
        (ts.map fun t => t.weight * t.value * f t.row t.col).sum := by
    intro ts
    induction ts with
    | nil => simp
    | cons t ts ih =>
      by_cases hdiag : t.row = t.col
      · rw [List.filter_cons_of_neg (by simp [hdiag]), List.map_cons, List.sum_cons, List.map_cons, List.sum_cons, ← ih,
          Triple.weight, if_pos hdiag]
        ring
      · rw [List.filter_cons_of_pos (by simpa using hdiag), List.map_cons, List.sum_cons, List.map_cons, List.map_cons,
          List.sum_cons, List.map_cons, List.sum_cons, ← ih, Triple.weight, if_neg hdiag, hf t.col t.row]
        ring
  rw [(A.cells_perm.map _).sum_eq, List.map_append, List.sum_append]
  exact hmirrored A.triples

end SymMatrix

/-! ## Unpacked arrays -/

namespace Packed

variable {α : Type} [Scalar α] {d : Nat}

/-- every cell on or below the diagonal is the number at its place -/
theorem getElem?_position {v : List α} (hv : v.length = d * (d + 1) / 2) (r c : Fin d) (h : c ≤ r) :
    v[position d r c]? = some ((toGrid d v).get r c) := by
  have hlength : v.length = (cells d).length := by rw [hv, length_cells]
  obtain ⟨hi, hcell⟩ := List.getElem?_eq_some_iff.1 (getElem?_cells r c h)
  have hboth := get_toGrid v hlength _ hi
  rw [hcell] at hboth
  rw [List.getElem?_eq_getElem (by omega), hboth.1]

/-- the number that a cell of either triangle is read from -/
def entry (d : Nat) (v : List α) (r c : Nat) : α := v.getD (position d (max r c) (min r c)) Scalar.zero

theorem get_toGrid_entry {v : List α} (hv : v.length = d * (d + 1) / 2) (r c : Fin d) :
    (toGrid d v).get r c = entry d v r c := by
  have hlength : v.length = (cells d).length := by rw [hv, length_cells]
  unfold entry
  rcases le_total c r with h | h
  · rw [max_eq_left (Fin.le_def.1 h), min_eq_right (Fin.le_def.1 h), List.getD_eq_getElem?_getD, getElem?_position hv r c h]
    rfl
  · rw [max_eq_right (Fin.le_def.1 h), min_eq_left (Fin.le_def.1 h), List.getD_eq_getElem?_getD, getElem?_position hv c r h,
      get_toGrid_comm v hlength]
    rfl

/-- reading an unpacked array is unpacking what is read -/
theorem map_toGrid_exactValue {v : List Float} (hv : v.length = d * (d + 1) / 2) :
    (toGrid d v).map exactValue = toGrid d (v.map exactValue) := by
  have hmap : (v.map exactValue).length = d * (d + 1) / 2 := by rw [List.length_map]; exact hv
  refine Grid.ext fun r c => ?_
  rw [Grid.get_map, get_toGrid_entry hv, get_toGrid_entry hmap, entry, entry, List.getD_eq_getElem?_getD,
    List.getD_eq_getElem?_getD, List.getElem?_map]
  cases v[position d (max r.val c.val) (min r.val c.val)]? with
  | none => exact exactValue_zero
  | some x => rfl

end Packed

/-- **The inner product with an unpacked array** is the weighted sum over the triples, each with the number at its place. -/
theorem SymMatrix.frobenius_toGrid {d : ℕ} (A : SymMatrix ℚ) (hA : A.dim = d) {w : List ℚ} (hw : w.length = d * (d + 1) / 2) :
    A.frobenius (Packed.toGrid d w) =
      (A.triples.map fun t => t.weight * t.value * w.getD (Packed.position d t.row t.col) 0).sum := by
  subst hA
  have hsymm : ∀ r c, Packed.entry A.dim w r c = Packed.entry A.dim w c r := fun r c => by
    rw [Packed.entry, Packed.entry, max_comm, min_comm]
  calc A.frobenius (Packed.toGrid A.dim w)
      = ∑ r : Fin A.dim, ∑ c : Fin A.dim, A.cell r c * Packed.entry A.dim w r c := by
        simp only [SymMatrix.frobenius, Packed.get_toGrid_entry hw]
    _ = (A.triples.map fun t => t.weight * t.value * Packed.entry A.dim w t.row t.col).sum := by
        rw [← A.sum_cells (Packed.entry A.dim w), A.sum_cells_symmetric hsymm]
    _ = (A.triples.map fun t => t.weight * t.value * w.getD (Packed.position A.dim t.row t.col) 0).sum := by
        refine congrArg List.sum (List.map_congr_left fun t ht => ?_)
        rw [Packed.entry, max_eq_left (A.lower t ht), min_eq_right (A.lower t ht), scalar_zero_rat]

/-! ## The checks -/

/-- the triples of a matrix read as a solver does: each with its weight and the number at its place in a packed triangle -/
def packedSum (d : ℕ) (v : List Float) (A : SymMatrix Float) : ℚ :=
  (A.triples.map fun t => t.weight * exactValue t.value * exactValue (v.getD (Packed.position d t.row t.col) 0.0)).sum

theorem frobenius_exactly {d : ℕ} (A : SymMatrix Float) (hA : A.dim = d) {v : List Float} (hv : v.length = d * (d + 1) / 2) :
    (A.map exactValue).frobenius ((Packed.toGrid d v).map exactValue) = packedSum d v A := by
  have hmap : (v.map exactValue).length = d * (d + 1) / 2 := by rw [List.length_map]; exact hv
  rw [Packed.map_toGrid_exactValue hv, SymMatrix.frobenius_toGrid (A.map exactValue) hA hmap, packedSum, SymMatrix.map, List.map_map]
  refine congrArg List.sum (List.map_congr_left fun t _ => ?_)
  change t.weight * exactValue t.value * (v.map exactValue).getD (Packed.position d t.row t.col) 0 = _
  rw [← exactValue_zero, List.getD_map]

/-- **The checks read a decoded matrix as the solver reads the data.** Whatever packed triangle of the right length is decoded, the
inner products of the constraint matrices with the decoded primal matrix, taken exactly, are the weighted sums of their triples with
the numbers of the triangle, and so is the primal objective, on top of the offset. -/
theorem decoded_primal_agrees (P : Program Float) {status : Status} (hs : status.isOptimal = true) {v y : List Float}
    (hv : v.length = P.dim * (P.dim + 1) / 2) (hy : y.length = P.numConstraints) (reported : Option Float) :
    ∃ (o : Optimum Float) (X : Grid P.dim Float),
      P.decode status (some (.ok v)) (some (.ok y)) (reported.map .ok) = .ok (.optimum o) ∧
        (⟨o.size, o.primal⟩ : (d : ℕ) × Grid d Float) = ⟨P.dim, X⟩ ∧
        P.exactly.applyConstraints (.ofGrid (X.map exactValue)) = .ok (P.constraints.map (packedSum P.dim v)) ∧
        P.exactly.primalObjective (.ofGrid (X.map exactValue)) = .ok (exactValue P.offset + packedSum P.dim v P.fixed) := by
  refine ⟨P.optimumAt v y reported, Packed.toGrid P.dim v, P.decode_optimum hs hv hy reported, rfl, ?_, ?_⟩
  · refine (P.exactly.applyConstraints_ofGrid ((Packed.toGrid P.dim v).map exactValue)).trans ?_
    have hconstraints : P.exactly.constraints = P.constraints.map (·.map exactValue) := rfl
    rw [hconstraints, List.map_map]
    exact congrArg Except.ok (List.map_congr_left fun A hA => frobenius_exactly A (P.constraint_dim A hA) hv)
  · refine (P.exactly.primalObjective_ofGrid ((Packed.toGrid P.dim v).map exactValue)).trans ?_
    exact congrArg (fun x => Except.ok (exactValue P.offset + x)) (frobenius_exactly P.fixed P.fixed_dim hv)

/-- the identity matrix of extent two, one constraint on its mixed cell, and the offset 3, in doubles -/
def mixedDoubles : Program Float where
  dim := 2
  offset := 3.0
  fixed := ⟨2, [⟨0, 0, 1.0⟩, ⟨1, 1, 1.0⟩], by decide, by decide, by decide, by decide⟩
  constraints := [⟨2, [⟨1, 0, 1.0⟩], by decide, by decide, by decide, by decide⟩]
  bounds := [2.0]
  dim_pos := Nat.two_pos
  fixed_dim := rfl
  constraint_dim := by simp
  length_eq := rfl
  bounds_finite := by decide
  offset_finite := by decide

/-- the mixed cell counts twice, with the second number of the triangle -/
theorem decoded_primal_agrees_mixed :
    ∃ (o : Optimum Float) (X : Grid 2 Float),
      mixedDoubles.decode .nearOptimal (some (.ok [4.0, 5.0, 6.0])) (some (.ok [0.5])) none = .ok (.optimum o) ∧
        (⟨o.size, o.primal⟩ : (d : ℕ) × Grid d Float) = ⟨2, X⟩ ∧
        mixedDoubles.exactly.applyConstraints (.ofGrid (X.map exactValue)) = .ok [2 * exactValue 1.0 * exactValue 5.0] := by
  obtain ⟨o, X, hdecode, hX, happly, -⟩ :=
    decoded_primal_agrees mixedDoubles (rfl : Status.nearOptimal.isOptimal = true) (v := [4.0, 5.0, 6.0]) (y := [0.5]) rfl rfl none
  refine ⟨o, X, hdecode, hX, happly.trans ?_⟩
  have hsum : packedSum 2 [4.0, 5.0, 6.0] ⟨2, [⟨1, 0, 1.0⟩], by decide, by decide, by decide, by decide⟩ =
      2 * exactValue 1.0 * exactValue 5.0 := add_zero _
  exact congrArg (fun x => Except.ok [x]) hsum

end MomentProgram
