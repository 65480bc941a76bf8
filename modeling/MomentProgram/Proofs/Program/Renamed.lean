/-
Programs of a Gram matrix whose monomials have other numbers.

The number of a monomial is its tag in the Gram matrix, the place of its coefficient, and, less one, the place of its constraint matrix,
of its bound and of its multiplier. With the fixed matrix in front of the constraint matrices, the offset in front of the bounds and the
moment 1 in front of the multipliers, all these lists are numbered like the coefficients, and a renaming moves the entries of each of them
alike (`Relisted`).

- `Gram.exists_renamed`: renamed tags pass every check that the others have passed.
- `Gram.Renames.lowerTriangular_eq`: the cells of a monomial are those of the monomial with its new number, in the same order.
- `encoding_commutes_with_renaming`: what the programs of the two have in common; `encoding_commutes_with_renaming_swap` exchanges two
  monomials.
-/
import Mathlib
import MomentProgram.Proofs.Gram.Tags
import MomentProgram.Proofs.Program.Moved

namespace MomentProgram

/-! ## Renamings -/

/-- a permutation of the monomials 1, …, n - 1 -/
structure IsRenaming (n : ℕ) (s : Equiv.Perm ℕ) : Prop where
  identity : s 0 = 0
  rest : ∀ k, n ≤ k → s k = k

namespace IsRenaming

variable {n : ℕ} {s : Equiv.Perm ℕ} (h : IsRenaming n s)

include h

theorem lt_iff (k : ℕ) : s k < n ↔ k < n := by
  constructor
  · intro hk
    by_contra hge
    rw [h.rest k (not_lt.1 hge)] at hk
    exact hge hk
  · intro hk
    by_contra hge
    have hfixed : s (s k) = s k := h.rest (s k) (not_lt.1 hge)
    rw [s.injective hfixed] at hge
    exact hge hk

theorem eq_zero_iff (k : ℕ) : s k = 0 ↔ k = 0 := by
  conv_lhs => rw [← h.identity]
  exact s.injective.eq_iff

/-- the matrix of a monomial keeps its scale -/
theorem matrixScale_eq (k : ℕ) : (matrixScale (s k) : Float) = matrixScale k := by simp only [matrixScale, h.eq_zero_iff]

end IsRenaming

/-- a tag after a renaming of the monomials; zero cells keep theirs -/
def renamedTag (s : Equiv.Perm ℕ) : Int → Int
  | .ofNat k => s k
  | .negSucc k => .negSucc k

theorem renamedTag_natCast (s : Equiv.Perm ℕ) (k : ℕ) : renamedTag s k = s k := rfl

theorem renamedTag_eq_natCast_iff {s : Equiv.Perm ℕ} {tag : Int} {k : ℕ} : renamedTag s tag = s k ↔ tag = k := by
  cases tag with
  | ofNat i =>
    show ((s i : ℕ) : Int) = s k ↔ ((i : ℕ) : Int) = k
    rw [Nat.cast_inj, Nat.cast_inj, s.injective.eq_iff]
  | negSucc i =>
    show Int.negSucc i = s k ↔ Int.negSucc i = k
    omega

theorem renamedTag_eq_zeroCell_iff {s : Equiv.Perm ℕ} {tag : Int} : renamedTag s tag = zeroCell ↔ tag = zeroCell := by
  cases tag with
  | ofNat i => exact ⟨fun h => (zeroCell_ne _ h.symm).elim, fun h => (zeroCell_ne _ h.symm).elim⟩
  | negSucc i => exact Iff.rfl

/-! ## Lists numbered by the monomials -/

section Relisted

variable {α β γ : Type} {s : Equiv.Perm ℕ}

/-- the entries of a list at the new numbers of their places -/
def Relisted (s : Equiv.Perm ℕ) (l' l : List α) : Prop := ∀ k, l'[s k]? = l[k]?

/-- behind its first entry a list is numbered from one on -/
theorem relisted_cons_iff (hs : ∀ k, s k = 0 ↔ k = 0) {a' a : α} {l' l : List α} :
    Relisted s (a' :: l') (a :: l) ↔ a' = a ∧ ∀ i, 1 ≤ i → l'[s i - 1]? = l[i - 1]? := by
  simp only [Relisted, List.getElem?_cons, hs]
  constructor
  · intro h
    refine ⟨Option.some.inj (h 0), fun i hi => ?_⟩
    have := h i
    rwa [if_neg (Nat.ne_of_gt hi), if_neg (Nat.ne_of_gt hi)] at this
  · rintro ⟨rfl, h⟩ k
    split
    · rfl
    · exact h k (by omega)

namespace Relisted

variable {l' l : List α} (h : Relisted s l' l)

include h

theorem mem_iff (a : α) : a ∈ l' ↔ a ∈ l := by
  rw [List.mem_iff_getElem?, List.mem_iff_getElem?]
  constructor
  · rintro ⟨k, hk⟩
    exact ⟨s.symm k, by rw [← h, s.apply_symm_apply, hk]⟩
  · rintro ⟨k, hk⟩
    exact ⟨s k, by rw [h, hk]⟩

theorem lt_length_iff (k : ℕ) : k < l.length ↔ s k < l'.length := by
  rw [← not_le, ← not_le, ← List.getElem?_eq_none_iff, ← List.getElem?_eq_none_iff, h k]

/-- the places of the one list as those of the other one -/
def places : Fin l.length ≃ Fin l'.length :=
  Fin.equivSubtype.trans ((s.subtypeEquiv h.lt_length_iff).trans Fin.equivSubtype.symm)

theorem length_eq : l'.length = l.length := (Fin.equiv_iff_eq.1 ⟨h.places⟩).symm

theorem get_places (k : Fin l.length) : l'.get (h.places k) = l.get k := by
  have hk := h k
  rw [List.getElem?_eq_getElem k.isLt, List.getElem?_eq_getElem ((h.lt_length_iff k).1 k.isLt)] at hk
  exact Option.some.inj hk

theorem map (f : α → β) : Relisted s (l'.map f) (l.map f) := fun k => by rw [List.getElem?_map, List.getElem?_map, h k]

theorem zipWith (f : α → β → γ) {m' m : List β} (hm : Relisted s m' m) : Relisted s (List.zipWith f l' m') (List.zipWith f l m) :=
  fun k => by rw [List.getElem?_zipWith, List.getElem?_zipWith, h k, hm k]

omit h in
theorem sum_eq {l' l : List ℚ} (h : Relisted s l' l) : l'.sum = l.sum := by
  rw [← Fin.sum_univ_getElem l', ← Fin.sum_univ_getElem l]
  exact (Fintype.sum_equiv h.places _ _ fun k => (h.get_places k).symm).symm

end Relisted

end Relisted

/-! ## Renamed Gram matrices -/

namespace Gram

variable {d : ℕ} {s : Equiv.Perm ℕ} {g : Gram d Float}

/-- renamed tags pass the checks of tags -/
theorem validTags_renamed (hs : IsRenaming g.monomials s) : ValidTags (g.tags.map (renamedTag s)) where
  least r c := by
    rw [Grid.get_map]
    rcases g.tag_cases r c with htag | ⟨k, -, htag⟩
    · rw [htag]
      exact le_rfl
    · rw [htag, renamedTag_natCast]
      omega
  symmetric r c := by rw [Grid.get_map, Grid.get_map, g.symmetric r c]
  contiguous := by
    refine ⟨g.monomials, fun n hn => ⟨?_, ?_⟩⟩
    · rintro ⟨r, c, rfl⟩
      rw [Grid.get_map] at hn ⊢
      rcases g.tag_cases r c with htag | ⟨k, hk, htag⟩
      · rw [htag] at hn
        exact absurd rfl hn
      · rw [htag, renamedTag_natCast]
        have := (hs.lt_iff k).2 hk
        omega
    · rintro ⟨hlo, hhi⟩
      obtain ⟨k, rfl⟩ := Int.eq_ofNat_of_zero_le hlo
      have hk : s.symm k < g.monomials := by
        rw [← hs.lt_iff, s.apply_symm_apply]
        omega
      obtain ⟨r, c, -, htag⟩ := g.exists_lower_cell hk
      exact ⟨r, c, by rw [Grid.get_map, htag, renamedTag_natCast, s.apply_symm_apply]⟩

/-- a Gram matrix that has the phases of another one and its monomials under new numbers -/
structure Renames (s : Equiv.Perm ℕ) (g' g : Gram d Float) : Prop where
  tags : g'.tags = g.tags.map (renamedTag s)
  phases : g'.phases = g.phases

/-- **Renamed tags make the renamed Gram matrix** with the same phases. -/
theorem exists_renamed {tags : Grid d Int} {phases : Option (Outcome (Tensor Float))} (h : ofTags tags phases = .ok g)
    (hs : IsRenaming g.monomials s) : ∃ g', ofTags (tags.map (renamedTag s)) phases = .ok g' ∧ Renames s g' g := by
  obtain ⟨F, hF, hphases⟩ := phases_of_ofTags h
  obtain rfl := tags_of_ofTags h
  obtain ⟨g', hg', htags', hphases'⟩ := exists_ofTags (validTags_renamed hs) hF
  refine ⟨g', hg', htags', ?_⟩
  rw [hphases', hphases]
  refine Grid.ext fun r c => ?_
  simp only [clearedPhases, Grid.get_ofFn, Grid.get_map, renamedTag_eq_zeroCell_iff]

namespace Renames

variable {g' : Gram d Float} (h : Renames s g' g)

include h

theorem get_tags (r c : Fin d) : g'.tags.get r c = renamedTag s (g.tags.get r c) := by rw [h.tags, Grid.get_map]

theorem monomials_eq (hs : IsRenaming g.monomials s) : g'.monomials = g.monomials := by
  apply le_antisymm
  · refine monomialCount_le fun r c => ?_
    rw [h.get_tags]
    rcases g.tag_cases r c with htag | ⟨k, hk, htag⟩
    · rw [htag]
      exact (neg_one_lt_zero).trans_le (Int.natCast_nonneg _)
    · rw [htag, renamedTag_natCast, Nat.cast_lt, hs.lt_iff]
      exact hk
  · by_contra hlt
    -- the last monomial of all is somewhere, under its new number
    obtain ⟨r, c, -, htag⟩ := g.exists_lower_cell (k := s.symm g'.monomials) (by rw [← hs.lt_iff, s.apply_symm_apply]; omega)
    have htag' := g'.tag_lt r c
    rw [h.get_tags, htag, renamedTag_natCast, s.apply_symm_apply] at htag'
    exact lt_irrefl _ htag'

theorem identityFirst_eq (hs : IsRenaming g.monomials s) : g'.identityFirst = g.identityFirst := by
  have hzero : ∀ tag, (renamedTag s tag == 0) = (tag == 0) := by
    intro tag
    have hiff : renamedTag s tag = s 0 ↔ tag = (0 : ℕ) := renamedTag_eq_natCast_iff
    rw [hs.identity] at hiff
    rw [Bool.eq_iff_iff, beq_iff_eq, beq_iff_eq]
    exact hiff
  unfold identityFirst
  simp only [h.get_tags, h.phases, hzero]

/-- **The cells of a monomial are those under its new number,** in the same order. -/
theorem lowerTriangular_eq (k : ℕ) (scale : Float) : g'.lowerTriangular (s k) scale = g.lowerTriangular k scale := by
  have hpick : ∀ tag, (renamedTag s tag == (s k : Int)) = (tag == (k : Int)) := fun tag => by
    rw [Bool.eq_iff_iff, beq_iff_eq, beq_iff_eq, renamedTag_eq_natCast_iff]
  simp only [lowerTriangular, SymMatrix.ofTaggedGrid, h.get_tags, h.phases, hpick]

end Renames

end Gram

/-! ## Renamed programs -/

namespace Program

/-- a program that has the matrices and the values of another one under new numbers -/
structure Renames {α : Type} [Scalar α] (s : Equiv.Perm ℕ) (Q P : Program α) : Prop where
  dim_eq : Q.dim = P.dim
  matrices : Relisted s Q.matrices P.matrices
  values : Relisted s (Q.offset :: Q.bounds) (P.offset :: P.bounds)

namespace Renames

variable {s : Equiv.Perm ℕ}

theorem exactly {Q P : Program Float} (h : Q.Renames s P) : Q.exactly.Renames s P.exactly where
  dim_eq := h.dim_eq
  matrices := h.matrices.map (·.map exactValue)
  values := h.values.map exactValue

theorem numConstraints_eq {α : Type} [Scalar α] {Q P : Program α} (h : Q.Renames s P) : Q.numConstraints = P.numConstraints :=
  Nat.succ.inj h.matrices.length_eq

variable {Q P : Program ℚ} (h : Q.Renames s P) {y' y : List ℚ} (hy : Relisted s (1 :: y') (1 :: y))

include h hy

theorem length_multipliers_iff : y'.length = Q.numConstraints ↔ y.length = P.numConstraints := by
  rw [h.numConstraints_eq, Nat.succ.inj hy.length_eq]

/-- **The dual objective is a sum over the monomials,** in whichever order. -/
theorem dualObjective_eq : Q.dualObjective y' = P.dualObjective y := by
  by_cases hlength : y.length = P.numConstraints
  · have hsum := (hy.zipWith (· * ·) h.values).sum_eq
    rw [List.zipWith_cons_cons, List.zipWith_cons_cons, List.sum_cons, List.sum_cons, one_mul, one_mul] at hsum
    rw [P.dualObjective_of_length hlength, Q.dualObjective_of_length ((h.length_multipliers_iff hy).2 hlength), hsum]
  · rw [dualObjective, dualObjective, if_pos hlength, if_pos (mt (h.length_multipliers_iff hy).1 hlength)]

/-- **So is a cell of the moment matrix.** -/
theorem momentCell_eq (hs : s 0 = 0) (r c : ℕ) : Q.momentCell y' r c = P.momentCell y r c := by
  have hfixed : Q.fixed = P.fixed := by
    have := h.matrices 0
    rw [hs] at this
    exact Option.some.inj this
  have hsum := (hy.zipWith (fun a A => a * SymMatrix.cell A r c) h.matrices).sum_eq
  rw [Program.matrices, Program.matrices, List.zipWith_cons_cons, List.zipWith_cons_cons, List.sum_cons, List.sum_cons, hfixed,
    add_right_inj] at hsum
  simp only [Program.momentCell_eq, hfixed, List.zip, List.map_zipWith]
  exact congrArg _ hsum

theorem momentMatrix_eq (hs : s 0 = 0) :
    (Q.momentMatrix y').map (⟨Q.dim, ·⟩) = ((P.momentMatrix y).map (⟨P.dim, ·⟩) : Outcome ((d : ℕ) × Grid d ℚ)) := by
  by_cases hlength : y.length = P.numConstraints
  · rw [P.momentMatrix_of_length hlength, Q.momentMatrix_of_length ((h.length_multipliers_iff hy).2 hlength)]
    simp only [h.momentCell_eq hy hs]
    exact congrArg Except.ok (sigma_ofFn h.dim_eq (P.momentCell y))
  · rw [P.momentMatrix_of_length_ne hlength, Q.momentMatrix_of_length_ne (mt (h.length_multipliers_iff hy).1 hlength)]
    rfl

end Renames

end Program

/-! ## Encoded programs -/

section Encoded

variable {κ : Type} {toReal : κ → Outcome Float} {s : Equiv.Perm ℕ}

theorem Relisted.of_values {l' l : List κ} {xs' xs : List Float} (h : Relisted s l' l)
    (hvalues' : List.Forall₂ (fun c x => toReal c = .ok x) l' xs') (hvalues : List.Forall₂ (fun c x => toReal c = .ok x) l xs) :
    Relisted s xs' xs := by
  have hmap : ∀ {l : List κ} {xs : List Float}, List.Forall₂ (fun c x => toReal c = .ok x) l xs → l.map toReal = xs.map .ok := by
    intro l xs hvalues
    rw [← List.forall₂_eq_eq_eq, List.forall₂_map_left_iff, List.forall₂_map_right_iff]
    exact hvalues
  intro k
  have hk := h.map toReal k
  rw [hmap hvalues', hmap hvalues, List.getElem?_map, List.getElem?_map] at hk
  exact Option.map_injective (fun _ _ => Except.ok.inj) hk

variable {d : ℕ} {g g' : Gram d Float} {objective objective' : List κ} {hlength : objective.length = monomialCount g.tags}
  {hlength' : objective'.length = monomialCount g'.tags} {P P' : Program Float}

/-- **The program of the renamed Gram matrix is renamed.** -/
theorem Encodes.renames (h : Encodes toReal ⟨d, g, objective, hlength⟩ P) (h' : Encodes toReal ⟨d, g', objective', hlength'⟩ P')
    (hs : IsRenaming g.monomials s) (hrenames : g'.Renames s g) (hobjective : Relisted s objective' objective) : P'.Renames s P where
  dim_eq := h'.dim_eq.trans h.dim_eq.symm
  values := hobjective.of_values h'.values h.values
  matrices := by
    have hcount : P'.matrices.length = P.matrices.length := by rw [h'.count, h.count, hrenames.monomials_eq hs]
    intro k
    by_cases hk : k < P.matrices.length
    · have hk' : s k < P'.matrices.length := by rw [hcount, h.count, hs.lt_iff, ← h.count]; exact hk
      have hmatrix := h'.matrix (s k) hk'
      rw [hs.matrixScale_eq, hrenames.lowerTriangular_eq, h.matrix k hk] at hmatrix
      rw [List.getElem?_eq_getElem hk, List.getElem?_eq_getElem hk', Except.ok.inj hmatrix]
    · have hk' : ¬ s k < P'.matrices.length := by rw [hcount, h.count, hs.lt_iff, ← h.count]; exact hk
      rw [List.getElem?_eq_none (not_lt.1 hk), List.getElem?_eq_none (not_lt.1 hk')]

/-- the renamed Gram matrix has the matrices that the other one has -/
theorem Encodes.hasMatrices_renamed (h : Encodes toReal ⟨d, g, objective, hlength⟩ P) (hs : IsRenaming g.monomials s)
    (hrenames : g'.Renames s g) : Relaxation.HasMatrices ⟨d, g', objective', hlength'⟩ := by
  intro k hk
  obtain ⟨k, rfl⟩ := s.surjective k
  have hk : k < P.matrices.length := by
    rw [h.count, ← hs.lt_iff]
    exact hk.trans_eq (hrenames.monomials_eq hs)
  refine ⟨P.matrices[k], ?_⟩
  rw [hs.matrixScale_eq]
  exact (hrenames.lowerTriangular_eq k _).trans (h.matrix k hk)

end Encoded

/-- **Encoding commutes with renaming the monomials.** Let a Gram matrix of any tags and phases be encoded with some coefficients, and let a
permutation of 0, 1, 2, … move only the numbers 1, …, m of the constraints. The tags renamed by it, those of zero cells as they are, make a
Gram matrix with the same phases, which is encoded with the coefficients under their new numbers. The program has the dimension, the
fixed matrix and the offset of the first one; its constraint matrices and bounds are the same ones under their new numbers, triple by
triple and bit by bit; and with multipliers under their new numbers the dual objectives and the moment matrices of both, read exactly, are
equal, and are refused alike if the multipliers are too many or too few. -/
theorem encoding_commutes_with_renaming {κ : Type} {d : ℕ} (toReal : κ → Outcome Float) (tags : Grid d Int)
    (phases : Option (Outcome (Tensor Float))) (g : Gram d Float) (objective objective' : List κ) (R : Relaxation Float κ)
    (P : Program Float) (s : Equiv.Perm ℕ) (hg : Gram.ofTags tags phases = .ok g) (hR : Relaxation.ofParts g (some objective) = .ok R)
    (hP : R.surface.encode toReal = .ok P) (hidentity : s 0 = 0) (hrest : ∀ k, P.numConstraints < k → s k = k)
    (hobjective : ∀ k, objective'[s k]? = objective[k]?) :
    ∃ (g' : Gram d Float) (R' : Relaxation Float κ) (P' : Program Float),
      Gram.ofTags (tags.map (renamedTag s)) phases = .ok g' ∧ g'.phases = g.phases ∧
      Relaxation.ofParts g' (some objective') = .ok R' ∧ R'.surface.encode toReal = .ok P' ∧
      P'.dim = P.dim ∧ P'.fixed = P.fixed ∧ P'.offset = P.offset ∧ P'.numConstraints = P.numConstraints ∧
      (∀ i, 1 ≤ i → P'.constraints[s i - 1]? = P.constraints[i - 1]?) ∧
      (∀ i, 1 ≤ i → P'.bounds[s i - 1]? = P.bounds[i - 1]?) ∧
      ∀ y y' : List ℚ, (∀ i, 1 ≤ i → y'[s i - 1]? = y[i - 1]?) →
        P'.exactly.dualObjective y' = P.exactly.dualObjective y ∧
        (P'.exactly.momentMatrix y').map (⟨P'.dim, ·⟩) =
          ((P.exactly.momentMatrix y).map (⟨P.dim, ·⟩) : Outcome ((n : ℕ) × Grid n ℚ)) := by
  obtain ⟨hlength, rfl⟩ := Relaxation.ofParts_ok hR
  have h := Relaxation.encode_ok hP
  have hs : IsRenaming g.monomials s := ⟨hidentity, fun k hk => hrest k (Nat.lt_of_succ_le (h.count_constraints.trans_le hk))⟩
  obtain ⟨g', hg', hrenames⟩ := Gram.exists_renamed hg hs
  have hlisted : Relisted s objective' objective := hobjective
  have hlength' : objective'.length = g'.monomials := by rw [hlisted.length_eq, hrenames.monomials_eq hs, hlength]; rfl
  let R' : Relaxation Float κ := ⟨d, g', objective', hlength'⟩
  -- the coefficients have the same values, in another order
  obtain ⟨xs, hvalues⟩ : ∃ xs, List.Forall₂ (fun c x => toReal c = .ok x) objective' xs := by
    refine Outcome.exists_forall₂_ok fun c hc => ?_
    obtain ⟨x, -, hx⟩ := Outcome.exists_related h.values.flip ((hlisted.mem_iff c).1 hc)
    exact ⟨x, hx⟩
  have hfinite : ∀ x ∈ xs, isFiniteDouble x = true := fun x hx =>
    P.values_finite x (((hlisted.of_values hvalues h.values).mem_iff x).1 hx)
  obtain ⟨P', hP', -⟩ := Relaxation.encode_of_finite (R := R') ((hrenames.identityFirst_eq hs).trans h.first)
    (h.hasMatrices_renamed hs hrenames) hvalues hfinite
  have hprogram : P'.Renames s P := h.renames (Relaxation.encode_ok hP') hs hrenames hlisted
  obtain ⟨hfixed, hconstraints⟩ := (relisted_cons_iff hs.eq_zero_iff).1 hprogram.matrices
  obtain ⟨hoffset, hbounds⟩ := (relisted_cons_iff hs.eq_zero_iff).1 hprogram.values
  refine ⟨g', R', P', hg', hrenames.phases, Relaxation.ofParts_of_length hlength', hP', hprogram.dim_eq, hfixed, hoffset,
    hprogram.numConstraints_eq, hconstraints, hbounds, fun y y' hy => ?_⟩
  have hmultipliers : Relisted s (1 :: y') (1 :: y) := (relisted_cons_iff hs.eq_zero_iff).2 ⟨rfl, hy⟩
  exact ⟨hprogram.exactly.dualObjective_eq hmultipliers, hprogram.exactly.momentMatrix_eq hmultipliers hidentity⟩

/-- with its two monomials exchanged the triangle has the bounds and the constraint matrices of the other order, and a moment matrix
at 3 and 5 that it has had at 5 and 3 -/
theorem encoding_commutes_with_renaming_swap : ∃ (P P' : Program Float) (g' : Gram 3 Float) (R' : Relaxation Float Float),
    Gram.ofTags (triangleTags.map (renamedTag (.swap 1 2))) (some (.ok (.ofGrid trianglePhases))) = .ok g' ∧
    Relaxation.ofParts g' (some [0.5, -2.0, 1.0]) = .ok R' ∧ R'.surface.encode .ok = .ok P' ∧
    P'.bounds[1]? = P.bounds[0]? ∧ P'.constraints[0]? = P.constraints[1]? ∧
    (P'.exactly.momentMatrix [3, 5]).map (⟨P'.dim, ·⟩) =
      ((P.exactly.momentMatrix [5, 3]).map (⟨P.dim, ·⟩) : Outcome ((n : ℕ) × Grid n ℚ)) := by
  obtain ⟨g, R, P, hg, hR, hP⟩ := triangle_encoded
  have hcount : P.numConstraints = 2 := by
    obtain ⟨_, rfl⟩ := Relaxation.ofParts_ok hR
    have hmonomials : g.monomials = 3 := by
      rw [Gram.monomials, Gram.tags_of_ofTags hg]
      decide
    exact Nat.succ.inj ((Relaxation.encode_ok hP).count_constraints.trans hmonomials)
  have hrest : ∀ k, P.numConstraints < k → Equiv.swap 1 2 k = k := fun k hk =>
    Equiv.swap_apply_of_ne_of_ne (by omega) (by omega)
  have hlisted : ∀ {α : Type} (a b c : α), ∀ k, [a, c, b][Equiv.swap 1 2 k]? = [a, b, c][k]? := by
    intro α a b c k
    rcases k with _ | _ | _ | k
    · rfl
    · rfl
    · rfl
    · rw [Equiv.swap_apply_of_ne_of_ne (by omega) (by omega)]
      rfl
  obtain ⟨g', R', P', hg', -, hR', hP', -, -, -, -, hconstraints, hbounds, hmultipliers⟩ :=
    encoding_commutes_with_renaming .ok triangleTags _ g _ [0.5, -2.0, 1.0] R P (.swap 1 2) hg hR hP rfl hrest (hlisted _ _ _)
  have hy : ∀ i, 1 ≤ i → [(3 : ℚ), 5][Equiv.swap 1 2 i - 1]? = [5, 3][i - 1]? :=
    ((relisted_cons_iff fun k => by rw [Equiv.swap_apply_eq_iff]; rfl).1 (hlisted (1 : ℚ) 5 3)).2
  exact ⟨P, P', g', R', hg', hR', hP', hbounds 1 le_rfl, hconstraints 2 one_le_two, (hmultipliers [5, 3] [3, 5] hy).2⟩

end MomentProgram
