/-
Encoding loses nothing.

Matrix k of an encoded program holds the cells of tag k, each once, with its phase or, for k > 0, the phase with the other sign
(`valuesAt_matrices`). The tags of a Gram matrix are -1, 0, …, n - 1 and its program has n matrices, so a cell is in exactly one of
them or, with tag -1, in none: the matrices partition the triangle. The first matrix that holds a cell is therefore the only one, and
its place is the tag (`holder?_monomial`).

`encoding_partitions_gram` collects what follows: which cell is held where and with which bits, that there is nothing else, that no
constraint matrix is empty, the order of the triples, their number, and that tags and phases can be read off the program again.
-/
import Mathlib
import MomentProgram.Proofs.Gram
import MomentProgram.Proofs.Program.Encode
import MomentProgram.Proofs.Symmetric.Tagged

namespace MomentProgram

/-! ## What the matrices hold -/

/-- a phase as matrix `k` of a program stores it -/
def storedPhase (k : Nat) (x : Float) : Float := if k = 0 then x else -x

theorem matrixScale_mul (k : Nat) (x : Float) : matrixScale k * x = storedPhase k x := by
  cases k with
  | zero => exact Double.one_mul x
  | succ k => exact Double.neg_one_mul x

theorem storedPhase_storedPhase (k : Nat) (x : Float) : storedPhase k (storedPhase k x) = x := by
  unfold storedPhase
  split
  · rfl
  · exact Double.neg_neg x

namespace Encodes

variable {κ : Type} {toReal : κ → Outcome Float} {R : Relaxation Float κ} {P : Program Float}

theorem lt_of_tag (h : Encodes toReal R P) {r c : Fin R.size} {k : Nat} (htag : R.gram.tags.get r c = k) :
    k < P.matrices.length := by
  have := R.gram.tag_lt r c
  rw [h.count]; omega

/-- **Matrix `k` holds the cells of tag `k`, each once,** and no other cell. -/
theorem valuesAt_matrices (h : Encodes toReal R P) {k : Nat} (hk : k < P.matrices.length) {r c : Fin R.size} (hle : c ≤ r) :
    P.matrices[k].valuesAt r c =
      if R.gram.tags.get r c = k then [storedPhase k (R.gram.phases.get r c)] else [] := by
  rw [SymMatrix.valuesAt_tagged (h.matrix k hk) hle, matrixScale_mul]
  simp only [beq_iff_eq]

theorem storedAt_matrices (h : Encodes toReal R P) {k : Nat} (hk : k < P.matrices.length) {r c : Fin R.size} (hle : c ≤ r) :
    P.matrices[k].storedAt r c =
      if R.gram.tags.get r c = k then some (storedPhase k (R.gram.phases.get r c)) else none := by
  rw [SymMatrix.storedAt_tagged (h.matrix k hk) hle, matrixScale_mul]
  simp only [beq_iff_eq]

theorem triples_matrices (h : Encodes toReal R P) {k : Nat} (hk : k < P.matrices.length) :
    P.matrices[k].triples = lowerTriples (fun r c => R.gram.tags.get r c == k) fun r c => matrixScale k * R.gram.phases.get r c :=
  SymMatrix.triples_tagged (h.matrix k hk)

theorem dim_matrices (h : Encodes toReal R P) {k : Nat} (hk : k < P.matrices.length) : P.matrices[k].dim = R.size :=
  SymMatrix.dim_tagged (h.matrix k hk)

/-- **The triples of all matrices are the cells with a monomial,** counted once each. -/
theorem nnz_eq_card (h : Encodes toReal R P) :
    P.nnz = (Finset.univ.filter fun x : Fin R.size × Fin R.size => x.2 ≤ x.1 ∧ R.gram.tags.get x.1 x.2 ≠ zeroCell).card := by
  let cells := Finset.univ.filter fun x : Fin R.size × Fin R.size => x.2 ≤ x.1 ∧ R.gram.tags.get x.1 x.2 ≠ zeroCell
  let monomialOf := fun x : Fin R.size × Fin R.size => (R.gram.tags.get x.1 x.2).toNat
  have hmaps : Set.MapsTo monomialOf cells (Finset.range P.matrices.length) := by
    intro x hx
    have htag := (Finset.mem_filter.1 hx).2.2
    obtain ⟨k, hk, hxk⟩ := (R.gram.tag_cases x.1 x.2).resolve_left htag
    simpa [monomialOf, hxk, h.count] using hk
  have hmatrix : ∀ k : Fin P.matrices.length, P.matrices[k.val].nnz = (cells.filter fun x => monomialOf x = k).card := by
    intro k
    rw [SymMatrix.nnz, h.triples_matrices k.isLt, length_lowerTriples, Finset.filter_filter]
    congr 1
    ext x
    simp only [Finset.mem_filter, Finset.mem_univ, true_and, beq_iff_eq, monomialOf, Fin.le_def]
    have hzero : zeroCell = -1 := rfl
    have := R.gram.least x.1 x.2
    constructor
    · rintro ⟨hle, htag⟩
      exact ⟨⟨hle, by omega⟩, by omega⟩
    · rintro ⟨⟨hle, hne⟩, htag⟩
      exact ⟨hle, by omega⟩
  calc P.nnz = (P.matrices.map SymMatrix.nnz).sum := by
        rw [Program.nnz, Program.matrices, List.map_cons, List.sum_cons]; rfl
    _ = ∑ k : Fin P.matrices.length, P.matrices[k.val].nnz := (Fin.sum_univ_fun_getElem _ _).symm
    _ = ∑ k : Fin P.matrices.length, (cells.filter fun x => monomialOf x = k).card := Finset.sum_congr rfl fun k _ => hmatrix k
    _ = ∑ k ∈ Finset.range P.matrices.length, (cells.filter fun x => monomialOf x = k).card :=
        (Finset.sum_range fun k => (cells.filter fun x => monomialOf x = k).card).symm
    _ = cells.card := (Finset.card_eq_sum_card_fiberwise hmaps).symm

end Encodes

/-! ## Reading the Gram matrix off a program -/

namespace Program

/-- the first matrix that holds a cell, by its place in the program, and the value there -/
def holder? (P : Program Float) (r c : Nat) : Option (Nat × Float) :=
  P.matrices.zipIdx.findSome? fun A => (A.1.storedAt r c).map fun v => (A.2, v)

/-- the tag that a program shows for a cell: the place of the matrix that holds it -/
def tagAt (P : Program Float) (r c : Nat) : Int := match P.holder? r c with
  | some (k, _) => k
  | none => zeroCell

/-- the phase that a program shows for a cell -/
def phaseAt (P : Program Float) (r c : Nat) : Float := match P.holder? r c with
  | some (k, v) => storedPhase k v
  | none => Scalar.zero

theorem holder?_comm (P : Program Float) (r c : Nat) : P.holder? r c = P.holder? c r := by
  simp only [holder?, SymMatrix.storedAt_comm _ r c]

end Program

namespace Encodes

variable {κ : Type} {toReal : κ → Outcome Float} {R : Relaxation Float κ} {P : Program Float}

/-- a zero cell has no holder -/
theorem holder?_zero (h : Encodes toReal R P) {r c : Fin R.size} (hle : c ≤ r) (htag : R.gram.tags.get r c = zeroCell) :
    P.holder? r c = none := by
  rw [Program.holder?, List.findSome?_eq_none_iff]
  rintro ⟨A, k⟩ hA
  obtain ⟨hk, rfl⟩ := List.mk_mem_zipIdx_iff_getElem?.1 hA |> List.getElem?_eq_some_iff.1
  rw [h.storedAt_matrices hk hle, htag, if_neg (zeroCell_ne k)]
  rfl

/-- a cell of monomial `k` is first held by matrix `k` -/
theorem holder?_monomial (h : Encodes toReal R P) {r c : Fin R.size} (hle : c ≤ r) {k : Nat} (htag : R.gram.tags.get r c = k) :
    P.holder? r c = some (k, storedPhase k (R.gram.phases.get r c)) := by
  have hk := h.lt_of_tag htag
  rw [Program.holder?, List.findSome?_eq_some_iff]
  have hk' : k < P.matrices.zipIdx.length := by simpa using hk
  refine ⟨P.matrices.zipIdx.take k, P.matrices.zipIdx[k], P.matrices.zipIdx.drop (k + 1), ?_, ?_, ?_⟩
  · rw [← List.drop_eq_getElem_cons hk', List.take_append_drop]
  · simp [h.storedAt_matrices hk hle, htag]
  · intro x hx
    obtain ⟨i, hi, rfl⟩ := List.mem_take_iff_getElem.1 hx
    have hik : i < k := by omega
    have hne : ¬ ((k : Int) = (i : Int)) := by omega
    simp [h.storedAt_matrices (hik.trans hk) hle, htag, hne]

theorem tagAt_eq (h : Encodes toReal R P) (r c : Fin R.size) : P.tagAt r c = R.gram.tags.get r c := by
  wlog hle : c ≤ r generalizing r c
  · rw [Program.tagAt, Program.holder?_comm, R.gram.symmetric r c]
    exact this c r (le_of_not_ge hle)
  · rcases R.gram.tag_cases r c with htag | ⟨k, -, htag⟩
    · rw [Program.tagAt, h.holder?_zero hle htag, htag]
    · rw [Program.tagAt, h.holder?_monomial hle htag, htag]

/-- on and below the diagonal the phases come back bit for bit -/
theorem phaseAt_eq (h : Encodes toReal R P) {r c : Fin R.size} (hle : c ≤ r) : P.phaseAt r c = R.gram.phases.get r c := by
  rcases R.gram.tag_cases r c with htag | ⟨k, -, htag⟩
  · rw [Program.phaseAt, h.holder?_zero hle htag, R.gram.cleared r c htag]
  · rw [Program.phaseAt, h.holder?_monomial hle htag]
    exact storedPhase_storedPhase k _

/-- above the diagonal they come back as numbers: a zero has the sign of the mirrored one -/
theorem phaseAt_mirrored (h : Encodes toReal R P) (r c : Fin R.size) :
    P.phaseAt r c = R.gram.phases.get r c ∨ Double.IsZero (P.phaseAt r c) ∧ Double.IsZero (R.gram.phases.get r c) := by
  rcases le_total c r with hle | hle
  · exact .inl (h.phaseAt_eq hle)
  · have hcomm : P.phaseAt r c = P.phaseAt c r := by rw [Program.phaseAt, Program.holder?_comm, Program.phaseAt]
    rw [hcomm, h.phaseAt_eq hle]
    exact R.gram.phase_mirrored c r

/-! ## The partition -/

/-- a matrix of the program is matrix `k` for some `k` -/
theorem exists_of_mem {A : SymMatrix Float} (hA : A ∈ P.matrices) : ∃ k, ∃ hk : k < P.matrices.length, A = P.matrices[k] := by
  obtain ⟨k, hk, rfl⟩ := List.mem_iff_getElem.1 hA
  exact ⟨k, hk, rfl⟩

/-- no matrix holds a zero cell -/
theorem valuesAt_zero (h : Encodes toReal R P) {r c : Fin R.size} (hle : c ≤ r) (htag : R.gram.tags.get r c = zeroCell) :
    ∀ A ∈ P.matrices, A.valuesAt r c = [] := by
  intro A hA
  obtain ⟨k, hk, rfl⟩ := exists_of_mem hA
  rw [h.valuesAt_matrices hk hle, htag, if_neg (zeroCell_ne k)]

/-- a cell of monomial `k` is held by matrix `k` and by no other -/
theorem valuesAt_monomial (h : Encodes toReal R P) {r c : Fin R.size} (hle : c ≤ r) {k : Nat} (htag : R.gram.tags.get r c = k)
    {i : Nat} (hi : i < P.matrices.length) :
    P.matrices[i].valuesAt r c = if i = k then [storedPhase k (R.gram.phases.get r c)] else [] := by
  rw [h.valuesAt_matrices hi hle, htag]
  by_cases hik : i = k
  · subst hik; simp
  · have hne : ¬ ((k : Int) = (i : Int)) := by omega
    rw [if_neg hne, if_neg hik]

/-- constraint matrix `i` is the matrix of monomial `i + 1` -/
theorem valuesAt_constraint (h : Encodes toReal R P) {r c : Fin R.size} (hle : c ≤ r) {k : Nat} (htag : R.gram.tags.get r c = k)
    {i : Nat} (hi : i < P.constraints.length) :
    P.constraints[i].valuesAt r c = if i + 1 = k then [storedPhase k (R.gram.phases.get r c)] else [] :=
  h.valuesAt_monomial hle htag (Nat.succ_lt_succ hi)

/-- every triple is in a cell on or below the diagonal, inside the matrix -/
theorem inside_of_mem (h : Encodes toReal R P) {A : SymMatrix Float} (hA : A ∈ P.matrices) {t : Triple Float}
    (ht : t ∈ A.triples) : t.col ≤ t.row ∧ t.row < R.size := by
  obtain ⟨k, hk, rfl⟩ := exists_of_mem hA
  exact ⟨SymMatrix.lower _ t ht, h.dim_matrices hk ▸ SymMatrix.inside _ t ht⟩

theorem pairwise_of_mem (h : Encodes toReal R P) {A : SymMatrix Float} (hA : A ∈ P.matrices) :
    A.triples.Pairwise fun s t => s.before t = true := by
  obtain ⟨k, hk, rfl⟩ := exists_of_mem hA
  rw [h.triples_matrices hk]
  exact pairwise_lowerTriples _ _

/-- every monomial has a cell, so its matrix is not empty -/
theorem triples_ne_nil (h : Encodes toReal R P) {A : SymMatrix Float} (hA : A ∈ P.matrices) : A.triples ≠ [] := by
  obtain ⟨k, hk, rfl⟩ := exists_of_mem hA
  obtain ⟨r, c, hle, htag⟩ := R.gram.exists_lower_cell (h.count ▸ hk)
  have hvalues := h.valuesAt_monomial hle htag hk
  rw [if_pos rfl] at hvalues
  intro hnil
  rw [SymMatrix.valuesAt, hnil] at hvalues
  cases hvalues

end Encodes

/-- **Encoding is lossless and partitions the Gram matrix.** Each cell on or below the diagonal is held exactly once, by the matrix of
its tag, or by none if it is a zero cell: the fixed matrix holds the phase of an identity cell, constraint matrix `k - 1` that of a
cell of monomial `k` with the sign bit flipped. There are no other triples; the matrices are ordered and none is empty; the triples
are as many as the cells with a monomial; and tags and phases can be read off the program. -/
theorem encoding_partitions_gram {κ : Type} (toReal : κ → Outcome Float) (R : Relaxation Float κ) (P : Program Float)
    (hP : R.surface.encode toReal = .ok P) :
    P.dim = R.size ∧ P.constraints.length + 1 = R.gram.monomials ∧
    -- where a cell is held, and with which bits
    (∀ r c, c ≤ r → R.gram.tags.get r c = zeroCell → ∀ A ∈ P.fixed :: P.constraints, A.valuesAt r c = []) ∧
    (∀ r c, c ≤ r → R.gram.tags.get r c = 0 →
      P.fixed.valuesAt r c = [R.gram.phases.get r c] ∧ ∀ A ∈ P.constraints, A.valuesAt r c = []) ∧
    (∀ r c (k : Nat), c ≤ r → 1 ≤ k → R.gram.tags.get r c = k →
      ∃ v, v.toBits = (R.gram.phases.get r c).toBits ^^^ Double.signBit ∧ P.fixed.valuesAt r c = [] ∧
        k - 1 < P.constraints.length ∧
        ∀ i (hi : i < P.constraints.length), P.constraints[i].valuesAt r c = if i = k - 1 then [v] else []) ∧
    -- nothing else is held
    (∀ A ∈ P.fixed :: P.constraints, ∀ t ∈ A.triples, t.col ≤ t.row ∧ t.row < R.size) ∧
    (∀ A ∈ P.constraints, A.triples ≠ []) ∧
    (∀ A ∈ P.fixed :: P.constraints, A.triples.Pairwise fun s t => s.row < t.row ∨ s.row = t.row ∧ s.col < t.col) ∧
    P.nnz = (Finset.univ.filter fun x : Fin R.size × Fin R.size => x.2 ≤ x.1 ∧ R.gram.tags.get x.1 x.2 ≠ -1).card ∧
    -- tags and phases read off the program
    (∀ r c : Fin R.size, P.tagAt r c = R.gram.tags.get r c) ∧
    (∀ r c : Fin R.size, c ≤ r → P.phaseAt r c = R.gram.phases.get r c) ∧
    (∀ r c : Fin R.size, P.phaseAt r c = R.gram.phases.get r c ∨
      Double.IsZero (P.phaseAt r c) ∧ Double.IsZero (R.gram.phases.get r c)) := by
  have h := Relaxation.encode_ok hP
  have hone : 0 < P.matrices.length := Nat.succ_pos _
  refine ⟨h.dim_eq, h.count_constraints, fun r c hle htag => h.valuesAt_zero hle htag, fun r c hle htag => ⟨?_, ?_⟩,
    fun r c k hle hk htag => ?_, fun A hA t ht => h.inside_of_mem hA ht, fun A hA => h.triples_ne_nil (List.mem_cons_of_mem _ hA),
    fun A hA => ?_, h.nnz_eq_card, h.tagAt_eq, fun r c hle => h.phaseAt_eq hle, h.phaseAt_mirrored⟩
  · exact h.valuesAt_monomial (k := 0) hle htag hone
  · intro A hA
    obtain ⟨i, hi, rfl⟩ := List.mem_iff_getElem.1 hA
    rw [h.valuesAt_constraint (k := 0) hle htag hi, if_neg (by omega)]
  · have hlt := h.lt_of_tag htag
    have hlen : P.matrices.length = P.constraints.length + 1 := rfl
    refine ⟨-R.gram.phases.get r c, Double.toBits_neg _ (R.gram.isNaN_phase r c), ?_, by omega, fun i hi => ?_⟩
    · have hfixed := h.valuesAt_monomial hle htag hone
      rwa [if_neg (by omega)] at hfixed
    · rw [h.valuesAt_constraint hle htag hi]
      have hstored : storedPhase k (R.gram.phases.get r c) = -R.gram.phases.get r c := if_neg (by omega)
      rw [hstored]
      by_cases hik : i = k - 1
      · rw [if_pos hik, if_pos (by omega)]
      · rw [if_neg hik, if_neg (by omega)]
  · refine (h.pairwise_of_mem hA).imp fun {s t} hst => ?_
    simpa [Triple.before] using hst

/-- the 2 × 2 matrix of the identity, a monomial with phase -2 and a zero cell, with its coefficients -/
def cornerRelaxation : Relaxation Float Float where
  size := 2
  gram := {
    tags := .ofFn fun r c => if r = 0 ∧ c = 0 then 0 else if r = 1 ∧ c = 1 then -1 else 1
    phases := .ofFn fun r c => if r = 0 ∧ c = 0 then 1.0 else if r = 1 ∧ c = 1 then 0.0 else -2.0
    least := by decide
    symmetric := by decide
    contiguous := by decide
    mirrored := by decide
    cleared := by decide }
  objective := [3.0, 0.5]
  length_eq := by decide

/-- the corner is encoded: two triples, the phase -2 stored as 2, and the zero cell read off as one -/
theorem encoding_partitions_gram_corner :
    ∃ P, cornerRelaxation.surface.encode .ok = .ok P ∧ P.nnz = 2 ∧ P.tagAt 1 1 = -1 ∧
      ∃ v, v.toBits = (-2.0 : Float).toBits ^^^ Double.signBit ∧ ∀ i (hi : i < P.constraints.length),
        P.constraints[i].valuesAt 1 0 = if i = 0 then [v] else [] := by
  obtain ⟨P, hP⟩ := Outcome.exists_ok (x := cornerRelaxation.surface.encode .ok) (by decide)
  obtain ⟨-, -, -, -, hmonomial, -, -, -, hcount, htags, -⟩ := encoding_partitions_gram .ok cornerRelaxation P hP
  obtain ⟨v, hbits, -, -, hvalues⟩ := hmonomial (1 : Fin 2) (0 : Fin 2) 1 (by decide) le_rfl (by decide)
  refine ⟨P, hP, ?_, ?_, v, hbits, hvalues⟩
  · rw [hcount]; decide
  · exact (htags (1 : Fin 2) (1 : Fin 2)).trans (by decide)

end MomentProgram
