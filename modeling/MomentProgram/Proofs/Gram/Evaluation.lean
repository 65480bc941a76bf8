/-
What the evaluation of a Gram matrix comes to.

A zero cell reads the first moment, although its phase is zero already; so the one matrix that has cells and no monomial reads a moment
that is not there (`evaluate_of_no_monomial`). Every other matrix has a value in every cell: the tag of a cell is below the number of
monomials (`Gram.tag_lt`), which is the number of moments. Where phases and moments are finite no cell is NaN, so mirrored cells are
equal as numbers, and a zero cell is one of the two zeros.

- `evaluation_verdict`: what every Gram matrix comes to on every list of finite moments.
- `evaluation_verdict_cross`: a value in every cell, and a moment missing.
- `evaluation_without_monomial`: the matrix of one zero cell, given the moments that it asks for, none, is refused.
-/
import Mathlib
import MomentProgram.Proofs.Number.Finite
import MomentProgram.Proofs.Value.Tags

namespace MomentProgram

namespace Gram

variable {d : ℕ} (g : Gram d Float)

/-- **A Gram matrix has no monomial exactly if all its cells are zero cells.** -/
theorem monomials_eq_zero_iff : g.monomials = 0 ↔ ∀ r c, g.tags.get r c = zeroCell := by
  constructor
  · intro h r c
    rcases g.tag_cases r c with hzero | ⟨k, hk, -⟩
    · exact hzero
    · rw [h] at hk
      exact absurd hk (Nat.not_lt_zero k)
  · intro h
    by_contra hne
    obtain ⟨r, c, -, htag⟩ := g.exists_lower_cell (Nat.pos_of_ne_zero hne)
    exact zeroCell_ne 0 ((h r c).symm.trans htag)

variable {g} {moments : List Float}

theorem evaluate_of_count_ne (h : moments.length ≠ g.monomials) :
    g.evaluate moments = .error (.momentCount g.monomials moments.length) := if_pos h

/-- **Cells that all are zero cells have no moment to read.** -/
theorem evaluate_of_no_monomial (hcount : moments.length = g.monomials) (hnone : g.monomials = 0) (hd : 0 < d) :
    g.evaluate moments = .error .missingEntry := by
  have hnil : moments = [] := List.eq_nil_of_length_eq_zero (hcount.trans hnone)
  rw [evaluate, if_neg (not_not.2 hcount), if_pos ⟨hnil, hd⟩]

theorem evaluate_of_count (hcount : moments.length = g.monomials) (h : ¬ (g.monomials = 0 ∧ 0 < d)) :
    g.evaluate moments = .ok (.ofFn fun r c => g.phases.get r c * moments.getD (g.tags.get r c).toNat Scalar.zero) := by
  have hread : ¬ (moments = [] ∧ 0 < d) := fun ⟨hnil, hd⟩ => h ⟨by rw [← hcount, hnil]; rfl, hd⟩
  rw [evaluate, if_neg (not_not.2 hcount), if_neg hread]

/-- the moment of a monomial is there -/
theorem tag_lt_length (hcount : moments.length = g.monomials) {r c : Fin d} {k : ℕ} (h : g.tags.get r c = k) : k < moments.length := by
  have hlt := g.tag_lt r c
  rw [h, ← hcount] at hlt
  exact_mod_cast hlt

/-- a moment that is read is finite -/
theorem isFinite_getD (hmoments : ∀ x ∈ moments, isFiniteDouble x = true) (k : ℕ) :
    isFiniteDouble (moments.getD k Scalar.zero) = true := by
  rcases lt_or_ge k moments.length with hk | hk
  · rw [List.getD_eq_getElem _ _ hk]
    exact hmoments _ (List.getElem_mem hk)
  · rw [List.getD_eq_default _ _ hk]
    decide

/-- mirrored cells read the same moment, so they are equal as numbers -/
theorem phase_mul_beq (hphases : ∀ r c, isFiniteDouble (g.phases.get r c) = true) {x : Float} (hx : isFiniteDouble x = true) (r c : Fin d) :
    (g.phases.get r c * x == g.phases.get c r * x) = true := by
  rcases g.phase_mirrored r c with heq | ⟨hzero, hzero'⟩
  · rw [← heq]
    exact Double.beq_self (Double.isNaN_mul (hphases r c) hx)
  · exact Double.beq_of_isZero (Double.isZero_mul hzero hx) (Double.isZero_mul hzero' hx)

end Gram

/-- **What an evaluation comes to.** For every Gram matrix with finite phases and every list of finite moments: another number of moments
than monomials is refused with both numbers; the right number is refused only if there are cells and all are zero cells, so that there is
no moment to read. Otherwise there is a matrix, with phase times moment k in the cells of monomial k, zero in the zero cells, and
mirrored cells that are equal as numbers. -/
theorem evaluation_verdict {d : ℕ} (g : Gram d Float) (moments : List Float)
    (hphases : ∀ r c, isFiniteDouble (g.phases.get r c) = true) (hmoments : ∀ x ∈ moments, isFiniteDouble x = true) :
    (moments.length ≠ g.monomials → g.evaluate moments = .error (.momentCount g.monomials moments.length)) ∧
    (moments.length = g.monomials → 0 < d → (∀ r c, g.tags.get r c = -1) → g.evaluate moments = .error .missingEntry) ∧
    (moments.length = g.monomials → d = 0 ∨ (∃ r c, g.tags.get r c ≠ -1) → ∃ M, g.evaluate moments = .ok M ∧
      (∀ r c, g.tags.get r c = -1 → Double.IsZero (M.get r c)) ∧
      (∀ r c, ∀ k : ℕ, g.tags.get r c = k → ∃ h : k < moments.length, M.get r c = g.phases.get r c * moments[k]) ∧
      ∀ r c, (M.get r c == M.get c r) = true) ∧
    (Fault.momentCount g.monomials moments.length).kind = .value ∧ Fault.missingEntry.kind = .index := by
  refine ⟨Gram.evaluate_of_count_ne, ?_, ?_, rfl, rfl⟩
  · intro hcount hd hzero
    exact Gram.evaluate_of_no_monomial hcount (g.monomials_eq_zero_iff.2 hzero) hd
  · intro hcount hcells
    have hread : ¬ (g.monomials = 0 ∧ 0 < d) := by
      rintro ⟨hnone, hd⟩
      rcases hcells with rfl | ⟨r, c, htag⟩
      · exact absurd hd (lt_irrefl 0)
      · exact htag (g.monomials_eq_zero_iff.1 hnone r c)
    refine ⟨_, Gram.evaluate_of_count hcount hread, ?_, ?_, ?_⟩
    · intro r c htag
      rw [Grid.get_ofFn, g.cleared r c htag]
      exact Double.isZero_mul (.inl rfl) (Gram.isFinite_getD hmoments _)
    · intro r c k htag
      have hk := Gram.tag_lt_length hcount htag
      exact ⟨hk, by rw [Grid.get_ofFn, htag, Int.toNat_natCast, List.getD_eq_getElem _ _ hk]⟩
    · intro r c
      rw [Grid.get_ofFn, Grid.get_ofFn, g.symmetric c r]
      exact Gram.phase_mul_beq hphases (Gram.isFinite_getD hmoments _) r c

/-- two monomials and a zero cell -/
def crossGram : Gram 2 Float where
  tags := zeroCellTags
  phases := ⟨#v[1.0, -2.0, -2.0, 0.0]⟩
  least := by decide
  symmetric := by decide
  contiguous := by decide
  mirrored := by decide
  cleared := by decide

/-- two moments make a matrix, with a zero in the zero cell; one moment is not enough -/
theorem evaluation_verdict_cross : ∃ M, crossGram.evaluate [1.0, 7.0] = .ok M ∧ M.get 1 0 = -2.0 * 7.0 ∧ Double.IsZero (M.get 1 1) ∧
    crossGram.evaluate [1.0] = .error (.momentCount 2 1) := by
  have hphases : ∀ r c, isFiniteDouble (crossGram.phases.get r c) = true := by decide
  obtain ⟨-, -, hread, -, -⟩ := evaluation_verdict crossGram [1.0, 7.0] hphases (by decide)
  obtain ⟨M, hM, hzero, hmonomial, -⟩ := hread (by decide) (.inr ⟨0, 0, by decide⟩)
  obtain ⟨_, hcell⟩ := hmonomial 1 0 1 rfl
  exact ⟨M, hM, hcell, hzero 1 1 rfl, (evaluation_verdict crossGram [1.0] hphases (by decide)).1 (by decide)⟩

/-- the matrix of one zero cell -/
def loneZeroCell : Gram 1 Float where
  tags := ⟨#v[-1]⟩
  phases := ⟨#v[0.0]⟩
  least := by decide
  symmetric := by decide
  contiguous := by decide
  mirrored := by decide
  cleared := by decide

/-- **As many moments as monomials need not make a matrix:** the tags may name no monomial, and then no list of moments does. -/
theorem evaluation_without_monomial : Gram.ofValues (.list [.list [.ofInt (-1)]]) none = .ok ⟨1, loneZeroCell⟩ ∧
    (∀ r c, isFiniteDouble (loneZeroCell.phases.get r c) = true) ∧ ([] : List Float).length = loneZeroCell.monomials ∧
    ¬ ∃ M, loneZeroCell.evaluate [] = .ok M := by
  refine ⟨Gram.ofValues_eq_ok.2 ⟨?_, rfl⟩, by decide, rfl, ?_⟩
  · show (Value.ofIntRows loneZeroCell.tags).toTags = _
    rw [Value.toTags_rows one_pos, if_pos (by decide), map_wrapWord (by decide)]
  · rintro ⟨M, hM⟩
    rw [Gram.evaluate_of_no_monomial rfl rfl one_pos] at hM
    cases hM

end MomentProgram
