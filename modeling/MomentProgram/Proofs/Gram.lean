/-
What the type of a Gram matrix promises.

The tags are -1 and exactly 0, …, n - 1: no tag is beyond the number of monomials (`tag_lt`), and each monomial has a cell on or below
the diagonal (`exists_lower_cell`), because tags are symmetric; so the monomials are counted by the distinct tags
(`card_distinctTags`). Phases of doubles are equal to their mirrored ones as numbers, so none is NaN, and mirrored phases differ at
most in the sign of a zero (`phase_mirrored`). The parts of a Gram matrix pass every check that made it (`ofTags_stored`).
-/
import Mathlib
import MomentProgram.Gram
import MomentProgram.Proofs.Array.Tensor
import MomentProgram.Proofs.Number.Double

namespace MomentProgram

namespace Grid

variable {d : Nat} {α : Type}

/-- the list of a grid holds the values of its cells and nothing else -/
theorem mem_toList {g : Grid d α} {a : α} : a ∈ g.toList ↔ ∃ r c, g.get r c = a := by
  rw [toList, Vector.mem_toList_iff, Vector.mem_iff_getElem]
  constructor
  · rintro ⟨i, hi, rfl⟩
    refine ⟨⟨i / d, row_lt ⟨i, hi⟩⟩, ⟨i % d, col_lt ⟨i, hi⟩⟩, ?_⟩
    have hidx : i / d * d + i % d = i := Nat.div_add_mod' i d
    simp [get, hidx]
  · rintro ⟨r, c, rfl⟩
    exact ⟨r.val * d + c.val, cell_lt r c, rfl⟩

theorem toList_ne_nil {g : Grid d α} (hd : 0 < d) : g.toList ≠ [] := List.ne_nil_of_mem (mem_toList.2 ⟨⟨0, hd⟩, ⟨0, hd⟩, rfl⟩)

end Grid

theorem zeroCell_ne (k : Nat) : ¬ zeroCell = (k : Int) := by rw [zeroCell]; omega

theorem foldl_max_ge (l : List Int) (b : Int) : b ≤ l.foldl max b ∧ ∀ a ∈ l, a ≤ l.foldl max b := by
  induction l generalizing b with
  | nil => simp
  | cons x l ih =>
    obtain ⟨hstart, hall⟩ := ih (max b x)
    refine ⟨(le_max_left b x).trans hstart, fun a ha => ?_⟩
    rcases List.mem_cons.1 ha with rfl | ha
    · exact (le_max_right b a).trans hstart
    · exact hall a ha

namespace Gram

variable {d : Nat}

section Tags

variable {α : Type} [BEq α] [Scalar α] (g : Gram d α)

/-- **No tag is beyond the number of monomials.** -/
theorem tag_lt (r c : Fin d) : g.tags.get r c < g.monomials := by
  have hle := (foldl_max_ge g.tags.toList zeroCell).2 _ (Grid.mem_toList.2 ⟨r, c, rfl⟩)
  rw [monomials, monomialCount]
  have := g.least r c
  have : zeroCell = -1 := rfl
  omega

/-- **Every monomial has a cell on or below the diagonal.** -/
theorem exists_lower_cell {k : Nat} (hk : k < g.monomials) : ∃ r c, c ≤ r ∧ g.tags.get r c = k := by
  have hcontiguous := g.contiguous
  simp only [isContiguous, Bool.and_eq_true, List.all_eq_true] at hcontiguous
  have hmem : (k : Int) ∈ g.tags.toList := by simpa using hcontiguous.2 k (List.mem_range.2 hk)
  obtain ⟨r, c, htag⟩ := Grid.mem_toList.1 hmem
  rcases le_total c r with h | h
  · exact ⟨r, c, h, htag⟩
  · exact ⟨c, r, h, by rw [g.symmetric c r, htag]⟩

/-- a cell is a zero cell or has the tag of a monomial -/
theorem tag_cases (r c : Fin d) : g.tags.get r c = zeroCell ∨ ∃ k : Nat, k < g.monomials ∧ g.tags.get r c = k := by
  have hlo := g.least r c
  have hhi := g.tag_lt r c
  have hzero : zeroCell = -1 := rfl
  by_cases h : g.tags.get r c = zeroCell
  · exact .inl h
  · exact .inr ⟨(g.tags.get r c).toNat, by omega, by omega⟩

/-- the tags that occur, without the one of zero cells -/
def distinctTags : Finset Int := (Finset.univ.image fun p : Fin d × Fin d => g.tags.get p.1 p.2).erase zeroCell

/-- **There are as many monomials as distinct tags.** -/
theorem card_distinctTags : g.distinctTags.card = g.monomials := by
  have htags : g.distinctTags = (Finset.range g.monomials).image (fun k : Nat => (k : Int)) := by
    ext tag
    simp only [distinctTags, Finset.mem_erase, Finset.mem_image, Finset.mem_univ, true_and, Prod.exists, Finset.mem_range]
    constructor
    · rintro ⟨hne, r, c, rfl⟩
      obtain ⟨k, hk, htag⟩ := (g.tag_cases r c).resolve_left hne
      exact ⟨k, hk, htag.symm⟩
    · rintro ⟨k, hk, rfl⟩
      obtain ⟨r, c, -, htag⟩ := g.exists_lower_cell hk
      exact ⟨fun h => zeroCell_ne k h.symm, r, c, htag⟩
  rw [htags, Finset.card_image_of_injective _ Nat.cast_injective, Finset.card_range]

/-- a first cell with the first monomial is a cell, and its monomial is one -/
theorem pos_of_identityFirst (h : g.identityFirst = true) : 0 < d ∧ 0 < g.monomials := by
  unfold identityFirst at h
  split at h
  case isTrue hd =>
    simp only [Bool.and_eq_true, beq_iff_eq] at h
    have hlt := g.tag_lt ⟨0, hd⟩ ⟨0, hd⟩
    rw [h.1] at hlt
    exact ⟨hd, by exact_mod_cast hlt⟩
  case isFalse => cases h

end Tags

section Stored

variable {α : Type} [BEq α] [Scalar α] [ReflConstants α]

theorem tags_of_ofTags {tags : Grid d Int} {phases : Option (Outcome (Tensor α))} {g : Gram d α}
    (h : ofTags tags phases = .ok g) : g.tags = tags := by
  unfold ofTags at h
  split_ifs at h
  split at h
  · cases h
    rfl
  · cases h

/-- **A Gram matrix is built again from its own tags and phases.** -/
theorem ofTags_stored (g : Gram d α) : ofTags g.tags (some (.ok (.ofGrid g.phases))) = .ok g := by
  have hcleared : clearedPhases g.tags g.phases = g.phases := by
    refine Grid.ext fun r c => ?_
    rw [clearedPhases, Grid.get_ofFn]
    split_ifs with h
    · exact (g.cleared r c h).symm
    · rfl
  have hphases : givenPhases d (some (.ok (.ofGrid g.phases))) = .ok ⟨g.phases, g.mirrored⟩ := by
    simp only [givenPhases, Tensor.toGridOf?_ofGrid, dif_pos g.mirrored]
  unfold ofTags
  rw [dif_pos g.least, dif_pos g.symmetric, dif_pos g.contiguous, hphases]
  simp only [hcleared]

end Stored

variable (g : Gram d Float)

theorem phase_beq (r c : Fin d) : (g.phases.get r c == g.phases.get c r) = true := Grid.isSymmetric_iff.1 g.mirrored r c

theorem isNaN_phase (r c : Fin d) : (g.phases.get r c).isNaN = false := Double.not_isNaN_of_beq (g.phase_beq r c)

/-- **Mirrored phases have the same bits or are both zero.** -/
theorem phase_mirrored (r c : Fin d) :
    g.phases.get r c = g.phases.get c r ∨ Double.IsZero (g.phases.get r c) ∧ Double.IsZero (g.phases.get c r) :=
  Double.eq_or_zero_of_beq (g.phase_beq r c)

end Gram

end MomentProgram
