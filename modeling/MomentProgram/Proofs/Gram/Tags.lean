/-
Which tags a Gram matrix may have.

Tags are valid if they are at least -1, symmetric, and those other than -1 are exactly 0, …, k - 1 for some k. The check asks instead
for every number up to the largest tag, and first that there are no more of these than cells; for valid tags the largest is k - 1, and
the numbers below k are in different cells, so the two agree (`isContiguous_of_valid`).

- `Gram.exists_ofTags`: valid tags and phases that pass their checks make a Gram matrix.
- `Gram.exists_ofTags_iff`: without phases a Gram matrix is made of exactly the valid tags.
-/
import MomentProgram.Proofs.Gram

namespace MomentProgram

variable {d : ℕ}

/-- tags that name zero cells and the monomials 0, …, k - 1 in mirrored cells -/
structure ValidTags (tags : Grid d Int) : Prop where
  least : ∀ r c, -1 ≤ tags.get r c
  symmetric : ∀ r c, tags.get r c = tags.get c r
  contiguous : ∃ k : ℕ, ∀ n : Int, n ≠ -1 → ((∃ r c, tags.get r c = n) ↔ 0 ≤ n ∧ n < k)

theorem foldl_max_le {l : List Int} {b n : Int} (hb : b ≤ n) (h : ∀ a ∈ l, a ≤ n) : l.foldl max b ≤ n := by
  induction l generalizing b with
  | nil => exact hb
  | cons a l ih => exact ih (max_le hb (h a List.mem_cons_self)) fun x hx => h x (List.mem_cons_of_mem a hx)

/-- the monomials are no more than a bound on the tags -/
theorem monomialCount_le {tags : Grid d Int} {k : ℕ} (h : ∀ r c, tags.get r c < k) : monomialCount tags ≤ k := by
  have hmax : tags.toList.foldl max zeroCell ≤ k - 1 := by
    refine foldl_max_le ?_ fun a ha => ?_
    · rw [zeroCell]
      omega
    · obtain ⟨r, c, rfl⟩ := Grid.mem_toList.1 ha
      exact Int.le_sub_one_of_lt (h r c)
  rw [monomialCount]
  omega

/-- **Numbers that all occur are no more than the cells.** -/
theorem le_cells {tags : Grid d Int} {k : ℕ} (h : ∀ i < k, ∃ r c, tags.get r c = (i : Int)) : k ≤ d * d := by
  have hsubset : (List.range k).map (fun i : ℕ => (i : Int)) ⊆ tags.toList := by
    intro n hn
    obtain ⟨i, hi, rfl⟩ := List.mem_map.1 hn
    exact Grid.mem_toList.2 (h i (List.mem_range.1 hi))
  have hnodup : ((List.range k).map fun i : ℕ => (i : Int)).Nodup := List.nodup_range.map Nat.cast_injective
  calc k = ((List.range k).map fun i : ℕ => (i : Int)).length := by rw [List.length_map, List.length_range]
    _ ≤ tags.toList.length := (List.subperm_of_subset hnodup hsubset).length_le
    _ = d * d := by rw [tags.length_toList, shapeSize, List.foldr_cons, List.foldr_cons, List.foldr_nil, mul_one]

theorem isContiguous_of_valid {tags : Grid d Int} (h : ValidTags tags) : isContiguous tags = true := by
  obtain ⟨k, hk⟩ := h.contiguous
  have hbound : ∀ r c, tags.get r c < k := by
    intro r c
    by_cases hzero : tags.get r c = -1
    · omega
    · exact ((hk _ hzero).1 ⟨r, c, rfl⟩).2
  have hoccurs : ∀ i < monomialCount tags, ∃ r c, tags.get r c = (i : Int) := by
    intro i hi
    have hle := monomialCount_le hbound
    exact (hk i (by omega)).2 ⟨by omega, by omega⟩
  rw [isContiguous, Bool.and_eq_true, decide_eq_true_eq, List.all_eq_true]
  refine ⟨le_cells hoccurs, fun i hi => ?_⟩
  rw [List.contains_iff_mem]
  exact Grid.mem_toList.2 (hoccurs i (List.mem_range.1 hi))

namespace Gram

variable {α : Type} [BEq α] [Scalar α]

theorem validTags (g : Gram d α) : ValidTags g.tags where
  least := g.least
  symmetric := g.symmetric
  contiguous := by
    refine ⟨g.monomials, fun n hn => ⟨?_, ?_⟩⟩
    · rintro ⟨r, c, rfl⟩
      obtain ⟨k, hk, htag⟩ := (g.tag_cases r c).resolve_left hn
      omega
    · rintro ⟨hlo, hhi⟩
      obtain ⟨r, c, -, htag⟩ := g.exists_lower_cell (k := n.toNat) (by omega)
      exact ⟨r, c, by omega⟩

variable [ReflConstants α] {tags : Grid d Int}

/-- **Valid tags and phases that pass their checks make a Gram matrix,** whose phases are those given, cleared in zero cells. -/
theorem exists_ofTags {phases : Option (Outcome (Tensor α))} {F : { F : Grid d α // F.isSymmetric (· == ·) = true }}
    (h : ValidTags tags) (hF : givenPhases d phases = .ok F) :
    ∃ g : Gram d α, ofTags tags phases = .ok g ∧ g.tags = tags ∧ g.phases = clearedPhases tags F.1 := by
  have hleast : ∀ r c, zeroCell ≤ tags.get r c := h.least
  unfold ofTags
  rw [dif_pos hleast, dif_pos h.symmetric, dif_pos (isContiguous_of_valid h), hF]
  exact ⟨_, rfl, rfl, rfl⟩

/-- the phases of a Gram matrix that was made -/
theorem phases_of_ofTags {phases : Option (Outcome (Tensor α))} {g : Gram d α} (h : ofTags tags phases = .ok g) :
    ∃ F, givenPhases d phases = .ok F ∧ g.phases = clearedPhases tags F.1 := by
  unfold ofTags at h
  split_ifs at h
  split at h
  case h_1 F hF =>
    cases h
    exact ⟨F, hF, rfl⟩
  case h_2 => cases h

/-- **Without phases a Gram matrix is made of exactly the valid tags.** -/
theorem exists_ofTags_iff : (∃ g : Gram d α, ofTags tags none = .ok g) ↔ ValidTags tags := by
  constructor
  · rintro ⟨g, hg⟩
    rw [← tags_of_ofTags hg]
    exact g.validTags
  · intro h
    have hones : givenPhases d (none : Option (Outcome (Tensor α))) = .ok _ := rfl
    obtain ⟨g, hg, -⟩ := exists_ofTags h hones
    exact ⟨g, hg⟩

end Gram

end MomentProgram
