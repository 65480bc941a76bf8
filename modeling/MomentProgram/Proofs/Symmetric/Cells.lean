/-
The cells of a symmetric matrix.

`valuesAt` lists what the triples of a matrix hold for one cell, in order. No cell is given twice, so the list has at most one
value (`length_valuesAt`), and it is the one that both triangles show (`storedAt_eq_head`).

The full matrix lists every triple once and every triple below the diagonal a second time, mirrored. Those cells are all different
(`nodup_places`) and each holds what `cell` says, so a sum over the stored cells is a sum over all rows and columns (`sum_cells`):
a mirrored cell counts twice and a diagonal one once, whatever the order of the triples.
-/
import Mathlib
import MomentProgram.Proofs.Number.Exact
import MomentProgram.Symmetric.Full

namespace MomentProgram

namespace SymMatrix

variable {α β : Type}

/-! ## One cell -/

/-- the values that the triples hold for a cell, in order -/
def valuesAt (A : SymMatrix α) (r c : Nat) : List α :=
  (A.triples.filter fun t => t.row == r && t.col == c).map (·.value)

@[simp] theorem get_dense [Scalar α] (A : SymMatrix α) {d : Nat} (r c : Fin d) : (A.dense d).get r c = A.cell r c := Grid.get_ofFn _ r c

/-- **A cell is given at most once.** -/
theorem length_valuesAt (A : SymMatrix α) (r c : Nat) : (A.valuesAt r c).length ≤ 1 := by
  let here := A.triples.filter fun t => t.row == r && t.col == c
  have hnodup : (here.map fun t => cellKey A.dim t.row t.col).Nodup := A.distinct.sublist (List.filter_sublist.map _)
  have hkeys : (here.map fun t => cellKey A.dim t.row t.col) = List.replicate here.length (cellKey A.dim r c) := by
    refine List.eq_replicate_iff.2 ⟨List.length_map _, fun k hk => ?_⟩
    obtain ⟨t, ht, rfl⟩ := List.mem_map.1 hk
    have hplace : t.row = r ∧ t.col = c := by simpa using (List.mem_filter.1 ht).2
    rw [hplace.1, hplace.2]
  rw [hkeys, List.nodup_replicate] at hnodup
  rwa [valuesAt, List.length_map]

theorem mem_valuesAt {A : SymMatrix α} {r c : Nat} {v : α} : v ∈ A.valuesAt r c ↔ ⟨r, c, v⟩ ∈ A.triples := by
  constructor
  · intro h
    obtain ⟨t, ht, rfl⟩ := List.mem_map.1 h
    obtain ⟨hstored, hplace⟩ := List.mem_filter.1 ht
    obtain ⟨hr, hc⟩ : t.row = r ∧ t.col = c := by simpa using hplace
    rwa [← hr, ← hc]
  · exact fun h => List.mem_map.2 ⟨_, List.mem_filter.2 ⟨h, by simp⟩, rfl⟩

theorem valuesAt_of_mem {A : SymMatrix α} {r c : Nat} {v : α} (h : ⟨r, c, v⟩ ∈ A.triples) : A.valuesAt r c = [v] := by
  have hmem := mem_valuesAt.2 h
  have hlen := A.length_valuesAt r c
  match hl : A.valuesAt r c with
  | [] => rw [hl] at hmem; cases hmem
  | [w] => rw [hl, List.mem_singleton] at hmem; rw [hmem]
  | _ :: _ :: _ => rw [hl] at hlen; simp at hlen

/-- a cell of either triangle shows what the triples hold for the one on or below the diagonal -/
theorem storedAt_eq_head (A : SymMatrix α) (r c : Nat) : A.storedAt r c = (A.valuesAt (max r c) (min r c)).head? := by
  rw [storedAt, triple?, valuesAt, List.head?_map, List.head?_filter]

theorem storedAt_eq_some_iff {A : SymMatrix α} {r c : Nat} {v : α} :
    A.storedAt r c = some v ↔ ⟨max r c, min r c, v⟩ ∈ A.triples := by
  rw [storedAt_eq_head]
  constructor
  · exact fun h => mem_valuesAt.1 (List.mem_of_head? h)
  · intro h
    rw [valuesAt_of_mem h]
    rfl

theorem storedAt_of_mem (A : SymMatrix α) {t : Triple α} (ht : t ∈ A.triples) : A.storedAt t.row t.col = some t.value := by
  have hle := A.lower t ht
  rw [storedAt_eq_head, max_eq_left hle, min_eq_right hle, valuesAt_of_mem ht]
  rfl

theorem storedAt_eq_none (A : SymMatrix α) {r c : Nat} (h : ∀ t ∈ A.triples, ¬(t.row = max r c ∧ t.col = min r c)) :
    A.storedAt r c = none := by
  rw [storedAt, triple?, Option.map_eq_none_iff, List.find?_eq_none]
  intro t ht
  simpa using h t ht

theorem valuesAt_map (f : α → β) (A : SymMatrix α) (r c : Nat) : (A.map f).valuesAt r c = (A.valuesAt r c).map f := by
  simp [valuesAt, map, List.filter_map, Function.comp_def]

theorem storedAt_map (f : α → β) (A : SymMatrix α) (r c : Nat) : (A.map f).storedAt r c = (A.storedAt r c).map f := by
  simp [storedAt_eq_head, valuesAt_map]

/-! ## All cells -/

theorem insertTriple_perm (t : Triple α) (ts : List (Triple α)) : (insertTriple t ts).Perm (t :: ts) := by
  induction ts with
  | nil => exact .refl _
  | cons s ts ih =>
    rw [insertTriple]
    split
    · exact (ih.cons s).trans (.swap t s ts)
    · exact .refl _

theorem sortTriples_perm (ts : List (Triple α)) : (sortTriples ts).Perm ts := by
  induction ts with
  | nil => exact .refl _
  | cons t ts ih => exact (insertTriple_perm t _).trans (ih.cons t)

theorem cells_perm (A : SymMatrix α) : A.cells.Perm (A.triples ++ A.mirrored) := sortTriples_perm _

/-- a stored cell of the full matrix is a triple or the mirror of one below the diagonal -/
theorem mem_full {A : SymMatrix α} {t : Triple α} :
    t ∈ A.triples ++ A.mirrored ↔ t ∈ A.triples ∨ t.row < t.col ∧ ⟨t.col, t.row, t.value⟩ ∈ A.triples := by
  rw [List.mem_append]
  refine or_congr_right ⟨fun h => ?_, fun ⟨hlt, h⟩ => ?_⟩
  · obtain ⟨s, hs, rfl⟩ := List.mem_map.1 h
    obtain ⟨hs, hne⟩ := List.mem_filter.1 hs
    have hle := A.lower s hs
    simp only [bne_iff_ne] at hne
    exact ⟨by simp only; omega, hs⟩
  · refine List.mem_map.2 ⟨⟨t.col, t.row, t.value⟩, List.mem_filter.2 ⟨h, ?_⟩, rfl⟩
    simp only [bne_iff_ne]
    omega

theorem storedAt_of_mem_full (A : SymMatrix α) {t : Triple α} (ht : t ∈ A.triples ++ A.mirrored) :
    A.storedAt t.row t.col = some t.value := by
  rcases mem_full.1 ht with h | ⟨-, h⟩
  · exact A.storedAt_of_mem h
  · rw [storedAt_comm]; exact A.storedAt_of_mem h

/-- the stored cells of the full matrix are inside it -/
theorem place_lt (A : SymMatrix α) {t : Triple α} (ht : t ∈ A.triples ++ A.mirrored) : t.row < A.dim ∧ t.col < A.dim := by
  rcases mem_full.1 ht with h | ⟨-, h⟩
  · exact ⟨A.inside t h, (A.lower t h).trans_lt (A.inside t h)⟩
  · exact ⟨(A.lower _ h).trans_lt (A.inside _ h), A.inside _ h⟩

/-- cells with different keys are different -/
theorem nodup_of_keys {dim : ℕ} {ts : List (Triple α)} (h : (ts.map fun t => cellKey dim t.row t.col).Nodup) :
    (ts.map fun t => (t.row, t.col)).Nodup := by
  refine List.Nodup.of_map (fun p : ℕ × ℕ => cellKey dim p.1 p.2) ?_
  rwa [List.map_map]

/-- **The full matrix lists no cell twice.** -/
theorem nodup_places (A : SymMatrix α) : ((A.triples ++ A.mirrored).map fun t => (t.row, t.col)).Nodup := by
  have hlower := nodup_of_keys A.distinct
  have hmirror : (A.mirrored.map fun t => (t.row, t.col)).Nodup := by
    have hbelow := nodup_of_keys (A.distinct.sublist ((List.filter_sublist (p := fun t => t.row != t.col)).map _))
    have := hbelow.map (f := Prod.swap) Prod.swap_injective
    simpa [mirrored, List.map_map, Function.comp_def] using this
  rw [List.map_append]
  refine hlower.append hmirror fun p hp hq => ?_
  -- a triple is on or below the diagonal, a mirrored one above it
  obtain ⟨s, hs, rfl⟩ := List.mem_map.1 hp
  obtain ⟨t, ht, he⟩ := List.mem_map.1 hq
  obtain ⟨u, hu, rfl⟩ := List.mem_map.1 ht
  obtain ⟨hu, hne⟩ := List.mem_filter.1 hu
  have hle := A.lower s hs
  have hle' := A.lower u hu
  simp only [Prod.mk.injEq, bne_iff_ne] at he hne
  omega

/-! ## Sums over a matrix -/

theorem cell_of_mem_full (A : SymMatrix ℚ) {t : Triple ℚ} (ht : t ∈ A.triples ++ A.mirrored) : A.cell t.row t.col = t.value := by
  simp only [cell, A.storedAt_of_mem_full ht, scalar_fromZero_rat]

theorem cell_eq_zero (A : SymMatrix ℚ) {r c : ℕ} (h : (r, c) ∉ (A.triples ++ A.mirrored).map fun t => (t.row, t.col)) :
    A.cell r c = 0 := by
  have hnone : A.storedAt r c = none := by
    refine A.storedAt_eq_none fun t ht hplace => h ?_
    rcases le_or_gt c r with hle | hlt
    · rw [max_eq_left hle, min_eq_right hle] at hplace
      exact List.mem_map.2 ⟨t, mem_full.2 (.inl ht), by rw [hplace.1, hplace.2]⟩
    · rw [max_eq_right hlt.le, min_eq_left hlt.le] at hplace
      refine List.mem_map.2 ⟨⟨t.col, t.row, t.value⟩, mem_full.2 (.inr ⟨?_, ht⟩), by simp [hplace.1, hplace.2]⟩
      rw [hplace.1, hplace.2]
      exact hlt
  simp only [cell, hnone, scalar_zero_rat]

/-- **A sum over the stored cells is a sum over the whole matrix.** -/
theorem sum_cells (A : SymMatrix ℚ) (f : ℕ → ℕ → ℚ) :
    (A.cells.map fun t => t.value * f t.row t.col).sum = ∑ r : Fin A.dim, ∑ c : Fin A.dim, A.cell r c * f r c := by
  let full := A.triples ++ A.mirrored
  let places := full.map fun t => (t.row, t.col)
  have hinside : places.toFinset ⊆ Finset.range A.dim ×ˢ Finset.range A.dim := by
    intro p hp
    obtain ⟨t, ht, rfl⟩ := List.mem_map.1 (List.mem_toFinset.1 hp)
    have hlt := A.place_lt ht
    simpa using hlt
  calc (A.cells.map fun t => t.value * f t.row t.col).sum
      = (full.map fun t => t.value * f t.row t.col).sum := (A.cells_perm.map _).sum_eq
    _ = (full.map fun t => A.cell t.row t.col * f t.row t.col).sum := by
        congr 1
        exact List.map_congr_left fun t ht => by rw [A.cell_of_mem_full ht]
    _ = (places.map fun p => A.cell p.1 p.2 * f p.1 p.2).sum := by rw [List.map_map]; rfl
    _ = ∑ p ∈ places.toFinset, A.cell p.1 p.2 * f p.1 p.2 := (List.sum_toFinset _ A.nodup_places).symm
    _ = ∑ p ∈ Finset.range A.dim ×ˢ Finset.range A.dim, A.cell p.1 p.2 * f p.1 p.2 := by
        refine Finset.sum_subset hinside fun p _ hp => ?_
        rw [A.cell_eq_zero (fun h => hp (List.mem_toFinset.2 h)), zero_mul]
    _ = ∑ r : Fin A.dim, ∑ c : Fin A.dim, A.cell r c * f r c := by
        rw [Finset.sum_product, Finset.sum_range]
        exact Finset.sum_congr rfl fun r _ => Finset.sum_range _

/-- the inner product of a matrix with a square array, cell by cell -/
def frobenius {d : ℕ} (A : SymMatrix ℚ) (X : Grid d ℚ) : ℚ := ∑ r : Fin d, ∑ c : Fin d, A.cell r c * X.get r c

end SymMatrix

end MomentProgram
