/-
The matrix of the cells that carry a tag.

`lowerTriples` meets the cells in the order of the full matrix, so what it lists is strictly increasing in row and column
(`pairwise_lowerTriples`) and holds one triple for each picked cell (`length_lowerTriples`). A matrix built from tags therefore
holds a cell on or below the diagonal exactly once if its tag is picked, with the changed phase, and not at all otherwise
(`valuesAt_tagged`).
-/
import Mathlib
import MomentProgram.Proofs.Symmetric.Cells
import MomentProgram.Symmetric.Tagged

namespace MomentProgram

variable {α : Type}

/-! ## The picked cells of an array -/

section LowerTriples

variable {p q : Nat} (pick : Fin p → Fin q → Bool) (value : Fin p → Fin q → α)

/-- **Picked cells come in order.** Rows do not decrease, and within a row columns increase. -/
theorem pairwise_lowerTriples : (lowerTriples pick value).Pairwise fun s t => s.before t = true := by
  rw [lowerTriples, List.pairwise_flatMap]
  constructor
  · intro r _
    rw [List.pairwise_map]
    refine ((List.pairwise_lt_finRange q).filter _).imp fun {a b} hab => ?_
    simpa [Triple.before] using hab
  · refine (List.pairwise_lt_finRange p).imp fun {a b} hab s hs t ht => ?_
    obtain ⟨c, -, rfl⟩ := List.mem_map.1 hs
    obtain ⟨c', -, rfl⟩ := List.mem_map.1 ht
    simpa [Triple.before] using Or.inl hab

/-- **One triple for each picked cell.** -/
theorem length_lowerTriples : (lowerTriples pick value).length =
    (Finset.univ.filter fun x : Fin p × Fin q => x.2.val ≤ x.1.val ∧ pick x.1 x.2 = true).card := by
  have hrow : ∀ r : Fin p, ((List.finRange q).filter fun c => decide (c.val ≤ r.val) && pick r c).length =
      (Finset.univ.filter fun c : Fin q => c.val ≤ r.val ∧ pick r c = true).card := by
    intro r
    rw [← List.toFinset_card_of_nodup ((List.nodup_finRange q).filter _)]
    congr 1
    ext c
    simp
  rw [lowerTriples, List.length_flatMap]
  simp only [List.length_map, hrow]
  rw [← Fin.sum_univ_def, Finset.card_filter, Fintype.sum_prod_type]
  simp only [Finset.card_filter]

end LowerTriples

/-- picked cells with their values changed are the picked cells with the changed values -/
theorem map_lowerTriples {α β : Type} {p q : ℕ} (pick : Fin p → Fin q → Bool) (value : Fin p → Fin q → α) (f : Triple α → Triple β)
    (value' : Fin p → Fin q → β) (h : ∀ (r : Fin p) (c : Fin q), f ⟨r.val, c.val, value r c⟩ = ⟨r.val, c.val, value' r c⟩) :
    (lowerTriples pick value).map f = lowerTriples pick value' := by
  unfold lowerTriples
  rw [List.map_flatMap]
  congr 1
  funext r
  rw [List.map_map]
  refine List.map_congr_left fun c _ => ?_
  exact h r c

/-! ## The entries behind picked cells -/

/-- an array of two axes has the entry of each place as the only one behind it -/
theorem Tensor.block?_of_shape {α : Type} {t : Tensor α} {P Q r c : ℕ} (hshape : t.shape = [P, Q]) (hr : r < P) (hc : c < Q) (fallback : α) :
    t.block? r c = some [t.get fallback [r, c]] := by
  have hlt : r * Q + c < t.toList.length := by
    rw [toList, Array.length_toList, t.size_eq, hshape]
    calc r * Q + c < (r + 1) * Q := by rw [Nat.succ_mul]; exact Nat.add_lt_add_left hc _
      _ ≤ P * Q := Nat.mul_le_mul_right Q hr
      _ = shapeSize [P, Q] := by simp [shapeSize]
  have hget : t.get fallback [r, c] = t.toList[r * Q + c] := by
    have hsize : r * Q + c < t.entries.size := by simpa [toList] using hlt
    simp [get, hshape, offset, shapeSize, toList, Array.getD_eq_getD_getElem?, hsize]
  unfold block?
  rw [hshape]
  simp only [hr, hc, and_self, if_true]
  have hsize : shapeSize [] = 1 := rfl
  rw [hsize, Nat.mul_one, hget, List.drop_eq_getElem_cons hlt]
  rfl

theorem toList_stackedBlocks {α : Type} (blocks : List (Triple (List α))) (axes : List ℕ) :
    (SymMatrix.stackedBlocks blocks axes).toList = blocks.flatMap (·.value) := by
  simp only [SymMatrix.stackedBlocks, Tensor.ofList?]
  split
  · rfl
  · rfl

/-! ## Matrices from tags -/

namespace SymMatrix

theorem ofTriples_ok {dim : Nat} {ts : List (Triple α)} {A : SymMatrix α} (h : ofTriples dim ts = .ok A) :
    A.dim = dim ∧ A.triples = ts := by
  unfold ofTriples at h
  split at h
  · split at h
    · split at h
      · split at h
        · cases h; exact ⟨rfl, rfl⟩
        · cases h
      · cases h
    · cases h
  · cases h

section Tags

variable {d : Nat} {tags : Grid d Int} {pick : Int → Bool} {phases : Grid d α} {f : α → α} {A : SymMatrix α}

theorem dim_tagged (h : ofTaggedGrid tags pick phases f = .ok A) : A.dim = d := (ofTriples_ok h).1

theorem triples_tagged (h : ofTaggedGrid tags pick phases f = .ok A) :
    A.triples = lowerTriples (fun r c => pick (tags.get r c)) fun r c => f (phases.get r c) := (ofTriples_ok h).2

/-- **A cell is held once if its tag is picked, and not at all otherwise.** -/
theorem valuesAt_tagged (h : ofTaggedGrid tags pick phases f = .ok A) {r c : Fin d} (hle : c ≤ r) :
    A.valuesAt r c = if pick (tags.get r c) then [f (phases.get r c)] else [] := by
  split
  case isTrue hpick =>
    apply valuesAt_of_mem
    rw [triples_tagged h, mem_lowerTriples]
    exact ⟨r, c, hle, hpick, rfl⟩
  case isFalse hpick =>
    refine List.eq_nil_iff_forall_not_mem.2 fun v hv => hpick ?_
    rw [mem_valuesAt, triples_tagged h, mem_lowerTriples] at hv
    obtain ⟨r', c', -, hpick', heq⟩ := hv
    obtain ⟨hr, hc, -⟩ := Triple.mk.inj heq
    rwa [Fin.ext hr, Fin.ext hc]

/-- the same, read from the full matrix -/
theorem storedAt_tagged (h : ofTaggedGrid tags pick phases f = .ok A) {r c : Fin d} (hle : c ≤ r) :
    A.storedAt r c = if pick (tags.get r c) then some (f (phases.get r c)) else none := by
  have hle' : c.val ≤ r.val := hle
  rw [storedAt_eq_head, max_eq_left hle', min_eq_right hle', valuesAt_tagged h hle]
  split <;> rfl

end Tags

end SymMatrix

end MomentProgram
