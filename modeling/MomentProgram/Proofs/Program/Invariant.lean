/-
What every program promises, wherever it comes from.

A program is made of parts as given, or encoded from a relaxation that may report anything about itself and offer any matrices, or things
that are none. Either way it is a `StatedProgram`: it has passed its checks in the arithmetic of its dimension. What the four checks of
points answer depends on the full forms of its matrices. If all have one, of one number of rows (`StatedProgram.Extends`), the program
answers as the `Program` of these forms does (`StatedProgram.Counts`), and no check reads outside an array of that size; a moment cell and
its mirror are computed from equal numbers in the same order (`Program.momentCell_comm`), so no exact arithmetic is needed. A matrix whose
dimension counts no rows has no full form, and the checks that need it are refused, whatever they are asked.

- `program_invariant`: the parts, and when each of the four checks has a result.
- `program_invariant_reported`: an encoded program of sized dimensions, whose relaxation only says that the identity comes first.
- `program_invariant_uncounted`: a dimension that is a real number, and one that is an array of two axes.
-/
import Mathlib
import MomentProgram.Input
import MomentProgram.Program.Reported
import MomentProgram.Proofs.Program.Stated
import MomentProgram.Proofs.Symmetric.Stated
import MomentProgram.Value.Coefficient

namespace MomentProgram

/-! ## The checks on arrays of the right size -/

theorem fits_same (s : List ℕ) : Fits s s := fun _ _ _ hm hn => .inl (Option.some.inj (hm.symm.trans hn))

section Checks

variable {α : Type} [Add α] [Mul α] [Scalar α]

/-- a square array of the right extent is not refused -/
theorem SymMatrix.exists_innerAlong {d : ℕ} {A : SymMatrix α} (hA : A.dim = d) {X : Tensor α} (hX : X.shape = [d, d]) (steps : Steps) :
    ∃ v, A.innerAlong X steps = .ok v := by
  cases h : A.innerAlong X steps with
  | ok v => exact ⟨v, rfl⟩
  | error e =>
    obtain ⟨-, hfits⟩ := (A.innerAlong_eq_error X steps).1 h
    rw [hA, hX] at hfits
    exact absurd (fits_same _) hfits

namespace Program

variable (P : Program α)

/-- **Every constraint has a value** on every square array of the dimension. -/
theorem exists_applyConstraints (X : Grid P.dim α) :
    ∃ values, P.applyConstraints (.ofGrid X) = .ok values ∧ values.length = P.numConstraints := by
  obtain ⟨S, hS, hshape, -⟩ := symmetrised_ofGrid X
  obtain ⟨values, hvalues⟩ := Outcome.exists_forall₂_ok fun A hA =>
    SymMatrix.exists_innerAlong (P.constraint_dim A hA) hshape (symmetricSteps (Tensor.ofGrid X).shape)
  exact ⟨values, Outcome.bind_ok.2 ⟨S, hS, Outcome.mapM_ok.2 hvalues⟩, hvalues.length_eq.symm⟩

theorem exists_primalObjective (X : Grid P.dim α) : ∃ v, P.primalObjective (.ofGrid X) = .ok v := by
  obtain ⟨S, hS, hshape, -⟩ := symmetrised_ofGrid X
  obtain ⟨v, hv⟩ := SymMatrix.exists_innerAlong P.fixed_dim hshape (symmetricSteps (Tensor.ofGrid X).shape)
  exact ⟨P.offset + v, Outcome.bind_ok.2 ⟨S, hS, Outcome.bind_ok.2 ⟨v, hv, rfl⟩⟩⟩

theorem dualObjective_eq_error (y : List α) : (∃ e, P.dualObjective y = .error e) ↔ y.length ≠ P.numConstraints := by
  unfold dualObjective
  split
  case isTrue h => exact iff_of_true ⟨_, rfl⟩ h
  case isFalse h => exact iff_of_false (Outcome.not_refused _) h

variable [Sub α]

omit [Add α] in
theorem momentMatrix_eq_error (y : List α) : (∃ e, P.momentMatrix y = .error e) ↔ y.length ≠ P.numConstraints := by
  unfold momentMatrix
  split
  case isTrue h => exact iff_of_true ⟨_, rfl⟩ h
  case isFalse h => exact iff_of_false (Outcome.not_refused _) h

omit [Add α] in
/-- **A moment cell and its mirror are the same number,** bit for bit: the matrices are symmetric, and both are computed in one order. -/
theorem momentCell_comm (y : List α) (r c : ℕ) : P.momentCell y r c = P.momentCell y c r :=
  momentCell_congr (P.fixed.cell_comm r c) (List.forall₂_same.2 fun A _ => A.cell_comm r c) y

end Program

end Checks

/-! ## The checks of a program -/

namespace StatedProgram

variable (P : StatedProgram)

/-- **The moment matrix is refused** for a wrong number of multipliers, and for all of them if a matrix has no full form. -/
theorem momentMatrix_eq_error (y : List Float) :
    (∃ e, P.momentMatrix y = .error e) ↔ y.length ≠ P.numConstraints ∨ ∀ d, ¬ P.Extends d := by
  constructor
  · rintro ⟨e, he⟩
    refine or_iff_not_imp_left.2 fun hy d hd => ?_
    obtain ⟨Q, hQ, -⟩ := hd.exists_counts
    rw [hQ.momentMatrix_eq (not_not.1 hy)] at he
    cases he
  · intro h
    cases P with
    | plain P =>
      have hlength := h.resolve_right fun hnone => hnone _ (counts_plain P).extends
      exact Outcome.map_refused.2 ((P.momentMatrix_eq_error y).2 (by rwa [(counts_plain P).length_eq]))
    | loose P =>
      show ∃ e, (if y.length ≠ P.constraints.length then _ else P.counted.bind _) = .error e
      split
      case isTrue => exact ⟨_, rfl⟩
      case isFalse hy =>
        cases hcounted : P.counted with
        | error e => exact ⟨e, rfl⟩
        | ok Q => exact absurd (counted_ok.1 hcounted).extends (h.resolve_left hy Q.dim)

theorem dualObjective_eq_error (y : List Float) : (∃ e, P.dualObjective y = .error e) ↔ y.length ≠ P.numConstraints := by
  cases P with
  | plain P =>
    rw [← (counts_plain P).length_eq]
    exact P.dualObjective_eq_error y
  | loose P =>
    show (∃ e, P.dualObjective y = .error e) ↔ y.length ≠ P.constraints.length
    unfold LooseProgram.dualObjective
    split
    case isTrue h => exact iff_of_true ⟨_, rfl⟩ h
    case isFalse h => exact iff_of_false (Outcome.not_refused _) h

theorem primalObjective_refused (h : P.parts.fixed.dim.count? = none) (X : Tensor Float) : ∃ e, P.primalObjective X = .error e := by
  cases P with
  | plain P => cases h
  | loose P =>
    have hfixed : P.fixed.full = .error .notNumeric := StatedMatrix.full_refused h
    refine Outcome.bind_refused fun S => ⟨.notNumeric, ?_⟩
    show (P.fixed.full >>= _) >>= _ = _
    rw [hfixed]
    rfl

theorem applyConstraints_refused {A : StatedMatrix} (hA : A ∈ P.parts.constraints) (h : A.dim.count? = none) (X : Tensor Float) :
    ∃ e, P.applyConstraints X = .error e := by
  cases P with
  | plain P =>
    obtain ⟨B, -, rfl⟩ := List.mem_map.1 hA
    cases h
  | loose P =>
    refine Outcome.bind_refused fun S => Outcome.mapM_refused hA ⟨.notNumeric, ?_⟩
    show A.full >>= _ = _
    rw [StatedMatrix.full_refused h]
    rfl

/-- **Up to 2^32 rows, matrices have full forms of as many rows as their dimensions count.** -/
theorem extends_iff {d : ℕ} (hd : d ≤ 2 ^ 32) : P.Extends d ↔ 0 < d ∧ ∀ A ∈ P.matrices, A.dim.count? = some (d : Int) := by
  refine and_congr_right fun _ => forall₂_congr fun A _ => ?_
  constructor
  · rintro ⟨B, hB, rfl⟩
    exact (StatedMatrix.full_ok hB).1
  · exact StatedMatrix.exists_full hd

/-- what a program promises in the arithmetic of its dimension -/
structure Sound : Prop where
  dim_pos : P.parts.dim.notPositive = .ok false
  dim_eq : ∀ A ∈ P.matrices, A.dim.equal P.parts.dim = .ok true
  lower : ∀ A ∈ P.matrices, ∀ t ∈ A.triples, t.col ≤ t.row
  inside : ∀ A ∈ P.matrices, A.dim.leavesOut A.triples = .ok false
  distinct : ∀ A ∈ P.matrices, A.dim.axisCount < 2 → (A.triples.map fun t => (t.row, t.col)).Nodup
  length_eq : P.parts.bounds.length = P.numConstraints
  bounds_finite : ∀ b ∈ P.parts.bounds, isFiniteDouble b = true
  offset_finite : isFiniteDouble P.parts.offset = true
  dual : ∀ y, (∃ e, P.dualObjective y = .error e) ↔ y.length ≠ P.numConstraints

/-- what it answers besides if its matrices have full forms of a number of rows -/
structure Answers (d : ℕ) : Prop where
  inside : ∀ A ∈ P.matrices, ∀ t ∈ A.triples, t.row < d
  distinct : ∀ A ∈ P.matrices, (A.triples.map fun t => (t.row, t.col)).Nodup
  moments : ∀ y, (∃ e, P.momentMatrix y = .error e) ↔ y.length ≠ P.numConstraints
  symmetric : ∀ y, y.length = P.numConstraints → ∃ M : Grid d Float, P.momentMatrix y = .ok ⟨d, M⟩ ∧ ∀ r c, M.get r c = M.get c r
  constraints : ∀ X : Grid d Float, ∃ values, P.applyConstraints (.ofGrid X) = .ok values ∧ values.length = P.numConstraints
  objective : ∀ X : Grid d Float, ∃ v, P.primalObjective (.ofGrid X) = .ok v

theorem sound : P.Sound where
  dim_pos := P.parts.dim_pos
  dim_eq := List.forall_mem_cons.2 ⟨P.parts.fixed_dim, P.parts.constraint_dim⟩
  lower A _ := A.lower
  inside A _ := A.inside
  distinct A _ := A.nodup_cells
  length_eq := P.parts.length_eq
  bounds_finite := P.parts.bounds_finite
  offset_finite := P.parts.offset_finite
  dual := P.dualObjective_eq_error

theorem answers {d : ℕ} (h : P.Extends d) : P.Answers d := by
  obtain ⟨Q, hQ, rfl⟩ := h.exists_counts
  refine ⟨fun A hA => ?_, fun A hA => ?_, fun y => ?_, fun y hy => ⟨_, hQ.momentMatrix_eq hy, fun r c => ?_⟩, fun X => ?_, fun X => ?_⟩
  · obtain ⟨B, hB, hdim⟩ := h.2 A hA
    rw [← hdim, ← (StatedMatrix.full_ok hB).2]
    exact B.inside
  · obtain ⟨B, hB, -⟩ := h.2 A hA
    rw [← (StatedMatrix.full_ok hB).2]
    exact SymMatrix.nodup_of_keys B.distinct
  · rw [P.momentMatrix_eq_error]
    exact or_iff_left fun hnone => hnone Q.dim h
  · rw [Grid.get_ofFn, Grid.get_ofFn, Q.momentCell_comm]
  · rw [hQ.applyConstraints_eq, ← hQ.length_eq]
    exact Q.exists_applyConstraints X
  · rw [hQ.primalObjective_eq]
    exact Q.exists_primalObjective X

end StatedProgram

/-- **What every program promises, whatever its origin.** It has the parts it was made of, all of them matrices. Its dimension is above zero
and equals that of every matrix, in their own arithmetic; every matrix has only cells on or below the diagonal and inside its dimension, and
none of them twice unless its dimension is an array of several axes; there are as many bounds as constraint matrices, and bounds and offset
are finite; and the dual objective is refused exactly for a wrong number of multipliers.

If all dimensions of matrices count the same number of rows, and always if all dimensions are unsized whole numbers, the moment matrix is
refused exactly for a wrong number of multipliers as well; it is square of this size and symmetric bit for bit for all multipliers, infinite
ones and NaN included; and on every square array of this size all constraints and the primal objective have values. A matrix whose dimension
counts no rows lets the moment matrix be refused for all multipliers, and the primal objective, if it is the fixed matrix, or the
constraints, if it is one of theirs, on all arrays. -/
theorem program_invariant (P : StatedProgram) :
    (∀ dim offset fixed constraints bounds, StatedProgram.ofParts dim offset fixed constraints bounds = .ok P →
        P.parts.dim = dim ∧ offset = .ok P.parts.offset ∧ fixed = some P.parts.fixed ∧ constraints = .ok (P.parts.constraints.map some) ∧
          bounds = .ok P.parts.bounds) ∧
      P.Sound ∧ (∀ d, P.Extends d → P.Answers d) ∧ (∀ Q, P = .plain Q → P.Extends Q.dim) ∧
      (∀ d : ℕ, d ≤ 2 ^ 32 → (P.Extends d ↔ 0 < d ∧ ∀ A ∈ P.matrices, A.dim.count? = some (d : Int))) ∧
      ∀ A ∈ P.matrices, A.dim.count? = none → (∀ y, ∃ e, P.momentMatrix y = .error e) ∧
        (A = P.parts.fixed → ∀ X, ∃ e, P.primalObjective X = .error e) ∧
        (A ∈ P.parts.constraints → ∀ X, ∃ e, P.applyConstraints X = .error e) := by
  refine ⟨fun _ _ _ _ _ => StatedProgram.ofParts_ok, P.sound, fun d => P.answers, ?_, fun d => P.extends_iff,
    fun A hA hcount => ⟨fun y => ?_, ?_, ?_⟩⟩
  · rintro Q rfl
    exact (StatedProgram.counts_plain Q).extends
  · refine (P.momentMatrix_eq_error y).2 (.inr fun d hd => ?_)
    obtain ⟨B, hB, -⟩ := hd.2 A hA
    rw [StatedMatrix.full_refused hcount] at hB
    cases hB
  · rintro rfl
    exact P.primalObjective_refused hcount
  · intro hconstraint
    exact P.applyConstraints_refused hconstraint hcount

/-- the matrix of `cornerMatrix` in a dimension of 8 bits -/
def sizedCorner : LooseMatrix where
  dim := .number (.int 2) (some (.int 8 true))
  triples := cornerMatrix.triples
  nonneg := rfl
  lower := cornerMatrix.lower
  inside := rfl
  distinct := rfl

/-- a relaxation that offers matrices of its own, reports a sized dimension and only says that the identity comes first -/
def reportedCorner : ReportedSurface where
  surface := {
    identityFirst := false
    monomials := 2
    size := 3
    fixed := .ok none
    constraint := fun _ => .ok none
    objective := some [.ofInt 3, .ofFloat 0.5] }
  identityFirst := some (.text "yes")
  monomials := none
  size := some (.number (.int 2) (some (.int 64 true)))
  matrices := some fun k => .ok (some (if k = 0 then .loose sizedCorner else .plain cornerMatrix))

/-- it makes a program of dimension 2, whose moment matrix at NaN is symmetric and which has one value on every square -/
theorem program_invariant_reported : ∃ P, reportedCorner.encode realValue = .ok P ∧
    (∃ M : Grid 2 Float, P.momentMatrix [0.0 / 0.0] = .ok ⟨2, M⟩ ∧ M.get 1 0 = M.get 0 1) ∧
    ∀ X : Grid 2 Float, ∃ v, P.applyConstraints (.ofGrid X) = .ok [v] := by
  have hencode : (reportedCorner.encode realValue).map (fun P => P.matrices.map fun A => A.dim.count?) = .ok [some 2, some 2] := by
    decide +kernel
  obtain ⟨P, hP, hcounts⟩ := Outcome.map_ok.1 hencode
  have hcount : P.numConstraints = 1 := by
    have hlength := congrArg List.length hcounts
    rw [List.length_map] at hlength
    exact Nat.succ.inj hlength
  have hmatrices : ∀ A ∈ P.matrices, A.dim.count? = some ((2 : ℕ) : Int) := by
    intro A hA
    have hmem := hcounts ▸ List.mem_map_of_mem (f := fun A : StatedMatrix => A.dim.count?) hA
    simpa using hmem
  obtain ⟨-, -, hanswers, -, hextends, -⟩ := program_invariant P
  have hanswers := hanswers 2 ((hextends 2 (by norm_num)).2 ⟨by norm_num, hmatrices⟩)
  obtain ⟨M, hM, hsymmetric⟩ := hanswers.symmetric [0.0 / 0.0] hcount.symm
  refine ⟨P, hP, ⟨M, hM, hsymmetric 1 0⟩, fun X => ?_⟩
  obtain ⟨values, happly, hlength⟩ := hanswers.constraints X
  obtain ⟨v, rfl⟩ := List.length_eq_one_iff.1 (hlength.trans hcount)
  exact ⟨v, happly⟩

/-- a real number as dimension -/
def realDim : Value := .ofFloat 2.0

/-- an array of two axes as dimension -/
def arrayDim : Value := .array (.int 64 true) [1, 1] [.int 2]

theorem belowZero_realDim : realDim.belowZero = .ok false := by decide +kernel

theorem belowZero_arrayDim : arrayDim.belowZero = .ok false := by decide +kernel

theorem equal_realDim : realDim.equal (.ofInt 2) = .ok true := by decide +kernel

theorem equal_arrayDim : arrayDim.equal (.ofInt 2) = .ok true := by
  have hcells : arrayDim.cells = .ok ⟨[1, 1], #[.number (.int 2) (some (.int 64 true))], rfl⟩ := by
    simp only [arrayDim, Value.cells, Value.cellsWith, Value.shape?, Value.leaves]
    rfl
  show ((arrayDim.cells >>= _) >>= _) >>= _ = _
  rw [hcells]
  decide +kernel

/-- a matrix whose dimension equals a whole number above zero is accepted as the fixed matrix of a program without constraints -/
theorem StatedProgram.exists_alone {A : LooseMatrix} {n : Int} (hn : 0 < n) (hA : A.dim.equal (.ofInt n) = .ok true) :
    ∃ P : LooseProgram, P.fixed = .loose A ∧ P.constraints = [] ∧
      StatedProgram.ofValues (.ofInt n) (.ofFloat 0.0) (.list []) (some (.loose A)) (some []) = .ok (.loose P) := by
  have hbounds : (Value.list []).toFloats = .ok [] := Value.toFloats_floats []
  have hoffset : (Value.ofFloat 0.0).toOffset = .ok 0.0 := by decide +kernel
  have hfinite : isFiniteDouble 0.0 = true := by decide +kernel
  have hpos := Value.notPositive_ofInt hn
  have hmatrix : LooseProgram.checkedMatrix (.ofInt n) none (some (.loose A)) = .ok ⟨.loose A, hA⟩ := by
    unfold LooseProgram.checkedMatrix
    dsimp only
    split
    · next e he => cases he.symm.trans hA
    · rfl
    · next he => cases he.symm.trans hA
  refine ⟨⟨.ofInt n, 0.0, .loose A, [], [], hpos, hA, nofun, rfl, nofun, hfinite⟩, rfl, rfl, ?_⟩
  unfold StatedProgram.ofValues
  rw [hbounds, hoffset]
  show (LooseProgram.ofParts (.ofInt n) (.ok 0.0) (some (.loose A)) (.ok []) (.ok [])).map StatedProgram.loose = _
  unfold LooseProgram.ofParts
  split
  · next e he => cases he.symm.trans hpos
  · next he => cases he.symm.trans hpos
  · simp only [bind, Except.bind, hmatrix, LooseProgram.checkedMatrices]
    rfl

/-- **Dimensions that count no rows.** A matrix of the real number 2.0 is accepted as the fixed matrix of a program of dimension 2, whose
moment matrix is refused for no multipliers, as many as there are bounds, and whose primal objective is refused on every array. A matrix of
the dimension `[[2]]`, an array of two axes, is accepted there with the first cell twice. -/
theorem program_invariant_uncounted :
    (∃ A P, StatedMatrix.ofValues realDim (.list [.ofInt 0]) (.list [.ofInt 0]) (.list [.ofFloat 1.0]) = .ok A ∧
        StatedProgram.ofValues (.ofInt 2) (.ofFloat 0.0) (.list []) (some A) (some []) = .ok P ∧
        P.momentMatrix [] = .error .notNumeric ∧ ∀ X, ∃ e, P.primalObjective X = .error e) ∧
      ∃ A P, StatedMatrix.ofValues arrayDim (.list [.ofInt 0, .ofInt 0]) (.list [.ofInt 0, .ofInt 0])
          (.list [.ofFloat 1.0, .ofFloat 2.0]) = .ok A ∧
        StatedProgram.ofValues (.ofInt 2) (.ofFloat 0.0) (.list []) (some A) (some []) = .ok P ∧
        P.parts.fixed.triples.map (fun t => (t.row, t.col)) = [(0, 0), (0, 0)] := by
  constructor
  · obtain ⟨A, hA⟩ := Outcome.exists_ok (x := LooseMatrix.ofLists realDim belowZero_realDim [0] [0] [1.0]) (by decide +kernel)
    obtain ⟨hdim, -⟩ := LooseMatrix.ofLists_ok hA
    have hcount : (StatedMatrix.loose A).dim.count? = none := by rw [StatedMatrix.dim, hdim]; rfl
    obtain ⟨P, hfixed, hconstraints, hP⟩ := StatedProgram.exists_alone (A := A) (n := 2) (by decide) (by rw [hdim]; exact equal_realDim)
    refine ⟨.loose A, .loose P, ?_, hP, ?_, (StatedProgram.loose P).primalObjective_refused ?_⟩
    · rw [← Outcome.map_ok.2 ⟨A, hA, rfl⟩]
      exact @StatedMatrix.ofValues_lists _ belowZero_realDim [0] [0] [1.0] (by decide) (by decide)
    · show (if [].length ≠ P.constraints.length then _ else (P.fixed.full >>= _).bind _) = _
      rw [hconstraints, hfixed, StatedMatrix.full_refused hcount]
      rfl
    · show P.fixed.dim.count? = none
      rw [hfixed]
      exact hcount
  · obtain ⟨A, hA⟩ := Outcome.exists_ok (x := LooseMatrix.ofLists arrayDim belowZero_arrayDim [0, 0] [0, 0] [1.0, 2.0]) (by decide +kernel)
    obtain ⟨hdim, htriples⟩ := LooseMatrix.ofLists_ok hA
    obtain ⟨P, hfixed, -, hP⟩ := StatedProgram.exists_alone (A := A) (n := 2) (by decide) (by rw [hdim]; exact equal_arrayDim)
    refine ⟨.loose A, .loose P, ?_, hP, ?_⟩
    · rw [← Outcome.map_ok.2 ⟨A, hA, rfl⟩]
      exact @StatedMatrix.ofValues_lists _ belowZero_arrayDim [0, 0] [0, 0] [1.0, 2.0] (by decide) (by decide)
    · show P.fixed.triples.map _ = _
      rw [hfixed]
      show A.triples.map _ = _
      rw [htriples]
      rfl

end MomentProgram
