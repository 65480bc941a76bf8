/-
Gram matrices read from values.

Tags are read as 64-bit numbers with a sign (`toTags_sized`), so a tag that was read is one of those and is read again as itself
(`wrapWord_toTags`, `toTags_words`). What a Gram matrix stores is a typed array of such tags and one of doubles; both are read as they
are, and what is stored passes the checks, so a Gram matrix built again from what it stores is the same one.

- `gram_normal_form`: what is stored of any values that make a Gram matrix, and that it makes the same one again.
- `gram_normal_form_zero_cell`: a zero cell whose phase is cleared.
-/
import MomentProgram.Input
import MomentProgram.Proofs.Gram
import MomentProgram.Proofs.Outcome
import MomentProgram.Proofs.Value.Array

namespace MomentProgram

/-- a number of 64 bits has its own low bits -/
theorem wrapWord_wrapWord (n : Int) : wrapWord (wrapWord n) = wrapWord n := by
  simp only [wrapWord, wrapTo, if_true, Nat.pow_eq]
  omega

/-- a grid of 64-bit numbers is the grid of their low bits -/
theorem map_wrapWord {d : ℕ} {tags : Grid d Int} (h : ∀ r c, wrapWord (tags.get r c) = tags.get r c) : tags.map wrapWord = tags :=
  Grid.ext fun r c => by rw [Grid.get_map, h r c]

namespace Value

theorem wrapWord_tagOf (v : Value) : wrapWord (tagOf v) = tagOf v := by
  unfold tagOf
  split
  case h_1 b _ => cases b <;> decide
  case h_2 n _ => exact wrapWord_wrapWord n
  case h_3 => decide

variable {d : Nat}

/-- the axes of a square array are not too many -/
theorem square_axes : [d, d].length ≤ axisLimit := by
  rw [List.length_cons, List.length_singleton]
  decide

/-- **Tags that were read are 64-bit numbers.** -/
theorem wrapWord_toTags {v : Value} {tags : Grid d Int} (h : v.toTags = .ok ⟨d, tags⟩) (r c : Fin d) :
    wrapWord (tags.get r c) = tags.get r c := by
  obtain ⟨t, -, ht⟩ := Outcome.bind_ok.1 h
  split at ht
  · cases ht
  · split_ifs at ht
    cases ht
    rw [Grid.get_map]
    exact wrapWord_tagOf _

theorem cells_eq_grid {v : Value} {g : Grid d Value} (h : ∃ t, v.cells = .ok t ∧ t.shape = [d, d] ∧ t.toList = g.toList) :
    v.cells = .ok (.ofGrid g) := by
  obtain ⟨t, ht, hshape, hlist⟩ := h
  rw [ht, Tensor.eq_of_toList hshape (hlist.trans (Tensor.toList_ofGrid g).symm)]

/-- **A square of cells is read as tags if it is empty or its cells are whole numbers together.** -/
theorem toTags_of_cells {v : Value} {g : Grid d Value} (h : v.cells = .ok (.ofGrid g)) :
    v.toTags = if d = 0 ∨ areTags (v.contentOf g.toList) = true then .ok ⟨d, g.map tagOf⟩ else .error .tagsNotIntegers := by
  rw [toTags, h]
  simp only [Except.bind, Tensor.toGrid?_ofGrid]
  rfl

/-- whole numbers are read by their low 64 bits, whatever their sort -/
theorem map_tagOf_int (tags : Grid d Int) (c : Option Cell) : (tags.map fun n => Value.number (.int n) c).map tagOf = tags.map wrapWord :=
  Grid.ext fun r c => by
    rw [Grid.get_map, Grid.get_map, Grid.get_map]
    rfl

/-- a square of whole numbers of a sort, as a typed array -/
def ofSized (bits : ℕ) (isSigned : Bool) (tags : Grid d Int) : Value := .array (.int bits isSigned) [d, d] (tags.toList.map Number.int)

/-- **A typed array of whole numbers is read as tags by the low 64 bits.** -/
theorem toTags_sized (bits : ℕ) (isSigned : Bool) (tags : Grid d Int) :
    (ofSized bits isSigned tags).toTags = .ok ⟨d, tags.map wrapWord⟩ := by
  let sort : Cell := .int bits isSigned
  have hlength : (tags.toList.map Number.int).length = shapeSize [d, d] := by rw [List.length_map, tags.length_toList]
  obtain ⟨t, ht, hshape, hlist⟩ := cells_array sort square_axes hlength
  have hcells : (ofSized bits isSigned tags).cells = .ok (.ofGrid (tags.map fun n => .number (.int n) (some sort))) := by
    refine cells_eq_grid ⟨t, ht, hshape, ?_⟩
    rw [hlist, List.map_map, Grid.toList_map]
    rfl
  rw [toTags_of_cells hcells, if_pos (.inr rfl), map_tagOf_int]

/-- **A typed array of 64-bit numbers is read as tags as it is.** -/
theorem toTags_words {tags : Grid d Int} (h : ∀ r c, wrapWord (tags.get r c) = tags.get r c) :
    (ofWords [d, d] tags.toList).toTags = .ok ⟨d, tags⟩ := by
  have hread := toTags_sized 64 true tags
  rwa [map_wrapWord h] at hread

theorem toTensor_doubles_grid (g : Grid d Float) : (ofDoubles [d, d] g.toList).toTensor = .ok (.ofGrid g) := by
  obtain ⟨t, ht, hshape, hlist⟩ := toTensor_doubles square_axes g.length_toList
  obtain rfl : t = .ofGrid g := Tensor.eq_of_toList hshape (hlist.trans (Tensor.toList_ofGrid g).symm)
  exact ht

end Value

/-- values make a Gram matrix if the tags are read as its tags and the phases pass its checks -/
theorem Gram.ofValues_eq_ok {tags : Value} {phases : Option Value} {d : Nat} {g : Gram d Float} :
    Gram.ofValues tags phases = .ok ⟨d, g⟩ ↔
      tags.toTags = .ok ⟨d, g.tags⟩ ∧ Gram.ofTags g.tags (phases.map Value.toTensor) = .ok g := by
  constructor
  · intro h
    obtain ⟨⟨e, read⟩, htags, h⟩ := Outcome.bind_ok.1 h
    obtain ⟨built, hbuilt, h⟩ := Outcome.bind_ok.1 h
    cases h
    rw [Gram.tags_of_ofTags hbuilt]
    exact ⟨htags, hbuilt⟩
  · rintro ⟨htags, hbuilt⟩
    exact Outcome.bind_ok.2 ⟨_, htags, Outcome.bind_ok.2 ⟨g, hbuilt, rfl⟩⟩

/-- **A Gram matrix stores a normal form of what it is built from.** Whatever values make a Gram matrix, its tags are symmetric and at
least -1, below the number of monomials, and each monomial has a cell on or below the diagonal, so the monomials are counted by the
distinct tags; its phases are no NaN, equal to the mirrored ones as numbers, and zero in zero cells. A Gram matrix with the identity
first has a cell and a monomial. Built again from the tags and phases that it stores, as typed arrays, it is the same. -/
theorem gram_normal_form (tags : Value) (phases : Option Value) {d : ℕ} {g : Gram d Float}
    (h : Gram.ofValues tags phases = .ok ⟨d, g⟩) :
    (∀ r c, -1 ≤ g.tags.get r c ∧ g.tags.get r c < g.monomials ∧ g.tags.get r c = g.tags.get c r) ∧
      (∀ k : ℕ, k < g.monomials → ∃ r c, c ≤ r ∧ g.tags.get r c = k) ∧
      g.monomials = ((Finset.univ.image fun p : Fin d × Fin d => g.tags.get p.1 p.2).erase (-1)).card ∧
      (∀ r c, (g.phases.get r c).isNaN = false ∧ (g.phases.get r c == g.phases.get c r) = true ∧
        (g.tags.get r c = -1 → g.phases.get r c = 0.0)) ∧
      (g.identityFirst = true → 1 ≤ d ∧ 1 ≤ g.monomials) ∧
      Gram.ofValues (.ofWords [d, d] g.tags.toList) (some (.ofDoubles [d, d] g.phases.toList)) = .ok ⟨d, g⟩ := by
  obtain ⟨htags, -⟩ := Gram.ofValues_eq_ok.1 h
  have hread : (Value.ofWords [d, d] g.tags.toList).toTags = .ok ⟨d, g.tags⟩ := Value.toTags_words (Value.wrapWord_toTags htags)
  have hbuilt : Gram.ofTags g.tags (some (Value.ofDoubles [d, d] g.phases.toList).toTensor) = .ok g := by
    rw [Value.toTensor_doubles_grid, g.ofTags_stored]
  exact ⟨fun r c => ⟨g.least r c, g.tag_lt r c, g.symmetric r c⟩, fun k => g.exists_lower_cell, g.card_distinctTags.symm,
    fun r c => ⟨g.isNaN_phase r c, g.phase_beq r c, g.cleared r c⟩, g.pos_of_identityFirst,
    Gram.ofValues_eq_ok.2 ⟨hread, hbuilt⟩⟩

/-- tags with one zero cell -/
def zeroCellTags : Grid 2 Int := ⟨#v[0, 1, 1, -1]⟩

/-- phases that differ in the sign of a zero, with a phase given for the zero cell -/
def zeroCellPhases : Grid 2 Float := ⟨#v[1.0, -0.0, 0.0, 2.0]⟩

/-- two monomials and a zero cell, whose phase is cleared, make a Gram matrix that makes itself again -/
theorem gram_normal_form_zero_cell :
    ∃ g : Gram 2 Float,
      Gram.ofValues (.ofWords [2, 2] zeroCellTags.toList) (some (.ofDoubles [2, 2] zeroCellPhases.toList)) = .ok ⟨2, g⟩ ∧
        g.monomials = 2 ∧ g.phases.get 1 1 = 0.0 ∧
        Gram.ofValues (.ofWords [2, 2] g.tags.toList) (some (.ofDoubles [2, 2] g.phases.toList)) = .ok ⟨2, g⟩ := by
  have haccepted : (Gram.ofTags zeroCellTags (some (.ok (.ofGrid zeroCellPhases)))).toOption.isSome = true := by decide +kernel
  obtain ⟨g, hg⟩ := Outcome.exists_ok haccepted
  have htags : g.tags = zeroCellTags := Gram.tags_of_ofTags hg
  have hmade : Gram.ofValues (.ofWords [2, 2] zeroCellTags.toList) (some (.ofDoubles [2, 2] zeroCellPhases.toList)) = .ok ⟨2, g⟩ := by
    refine Gram.ofValues_eq_ok.2 ⟨?_, ?_⟩
    · rw [htags]
      exact Value.toTags_words (by decide)
    · rw [htags, Option.map_some, Value.toTensor_doubles_grid]
      exact hg
  obtain ⟨-, -, -, hphases, -, hagain⟩ := gram_normal_form _ _ hmade
  refine ⟨g, hmade, ?_, (hphases 1 1).2.2 (by rw [htags]; rfl), hagain⟩
  rw [Gram.monomials, htags]
  decide

end MomentProgram
