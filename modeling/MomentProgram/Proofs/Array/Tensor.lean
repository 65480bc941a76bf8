/-
Reading arrays.

A multi-index is inside a shape if it is below it axis by axis. The list of all has those and no others, each once (`mem_indices`,
`nodup_indices`), and the one at the offset of a multi-index is itself (`getElem?_indices`). So an array filled from a function gives the
function back (`get_ofFn`), and reading an array at all multi-indices lists its entries (`map_get_indices`).

Two shapes have a common one exactly if they fit axis by axis (`fitted?_eq_none_iff`). Two arrays that fit are combined entry by entry,
each read behind the multi-index of the common shape (`zipFitted?_of_fitted`); arrays of one shape fit each other without repeating an
axis (`zipFitted?_same`).
-/
import Mathlib
import MomentProgram.Array.Tensor

namespace MomentProgram

/-- a multi-index inside a shape -/
abbrev Inside (ix s : List Nat) : Prop := List.Forall₂ (· < ·) ix s

theorem inside_pair {d : Nat} (r c : Fin d) : Inside [r.val, c.val] [d, d] := .cons r.isLt (.cons c.isLt .nil)

theorem getElem?_flatMap_length {α β : Type} {f : α → List β} {k : Nat} (hf : ∀ a, (f a).length = k) (l : List α) {i j : Nat}
    (hi : i < l.length) (hj : j < k) : (l.flatMap f)[i * k + j]? = (f l[i])[j]? := by
  induction l generalizing i with
  | nil => simp at hi
  | cons a l ih =>
    rw [List.flatMap_cons]
    cases i with
    | zero => rw [Nat.zero_mul, Nat.zero_add, List.getElem?_append_left (by rw [hf]; exact hj)]; rfl
    | succ i =>
      have hpast : (i + 1) * k + j = (f a).length + (i * k + j) := by rw [hf]; ring
      rw [hpast, List.getElem?_append_right (Nat.le_add_right _ _), Nat.add_sub_cancel_left]
      exact ih (by simpa using hi)

/-- **The multi-index that stands at an offset.** -/
theorem getElem?_indices {ix s : List Nat} (h : Inside ix s) : (indices s)[offset s ix]? = some ix := by
  induction h with
  | nil => rfl
  | @cons i n ix s hi hix ih =>
    have hlt : offset s ix < shapeSize s := by
      obtain ⟨hlen, -⟩ := List.getElem?_eq_some_iff.1 ih
      rwa [length_indices] at hlen
    have hlength : ∀ a, ((indices s).map (a :: ·)).length = shapeSize s := by simp [length_indices]
    rw [indices, offset, getElem?_flatMap_length hlength _ (by simpa using hi) hlt, List.getElem?_map, ih, List.getElem_range]
    rfl

/-- **The listed multi-indices are those inside the shape.** -/
theorem mem_indices {ix s : List Nat} : ix ∈ indices s ↔ Inside ix s := by
  induction s generalizing ix with
  | nil => simp [indices]
  | cons n s ih =>
    simp only [indices, List.mem_flatMap, List.mem_range, List.mem_map]
    constructor
    · rintro ⟨i, hi, jx, hjx, rfl⟩
      exact .cons hi (ih.1 hjx)
    · rintro (_ | ⟨hi, hjx⟩)
      exact ⟨_, hi, _, ih.2 hjx, rfl⟩

theorem nodup_indices (s : List Nat) : (indices s).Nodup := by
  induction s with
  | nil => simp [indices]
  | cons n s ih =>
    rw [indices, List.nodup_flatMap]
    refine ⟨fun i _ => ih.map (List.cons_injective), List.nodup_range.imp fun {i j} hij => ?_⟩
    rw [Function.onFun, List.disjoint_left]
    intro ix hi hj
    obtain ⟨x, -, rfl⟩ := List.mem_map.1 hi
    obtain ⟨y, -, heq⟩ := List.mem_map.1 hj
    exact hij (List.cons.inj heq).1.symm

theorem Grid.length_toList {α : Type} {d : Nat} (g : Grid d α) : g.toList.length = shapeSize [d, d] := by
  simp [toList, shapeSize]

theorem Grid.toList_map {α β : Type} {d : Nat} (f : α → β) (g : Grid d α) : (g.map f).toList = g.toList.map f := by
  rw [Grid.toList, Grid.map, Vector.toList_map, Grid.toList]

/-- **The list of a grid goes row by row.** -/
theorem Grid.toList_eq_flatten {α : Type} {d : Nat} (g : Grid d α) :
    g.toList = (List.ofFn fun r => List.ofFn fun c => g.get r c).flatten := by
  have hcells : g.toList = List.ofFn fun k : Fin (d * d) => g.cells[k] := by
    refine List.ext_getElem ?_ fun i h h' => ?_
    · rw [List.length_ofFn, g.length_toList]
      simp [shapeSize]
    · rw [List.getElem_ofFn]
      rfl
  rw [hcells, List.ofFn_mul]
  rfl

namespace Tensor

variable {α β γ : Type}

/-- an array is its shape and its entries -/
theorem eq_of_toList {t u : Tensor α} (hshape : t.shape = u.shape) (hlist : t.toList = u.toList) : t = u := by
  obtain ⟨shape, entries, hsize⟩ := t
  obtain ⟨shape', entries', hsize'⟩ := u
  obtain rfl : shape = shape' := hshape
  obtain rfl : entries = entries' := Array.toList_inj.1 hlist
  rfl

@[simp] theorem shape_ofFn (s : List Nat) (f : List Nat → α) : (ofFn s f).shape = s := rfl

theorem get_ofFn (s : List Nat) (f : List Nat → α) (fallback : α) {ix : List Nat} (h : Inside ix s) :
    (ofFn s f).get fallback ix = f ix := by
  simp [get, ofFn, Array.getD_eq_getD_getElem?, getElem?_indices h]

/-- **Reading an array at all multi-indices lists its entries.** -/
theorem map_get_indices (t : Tensor α) (fallback : α) : (indices t.shape).map (t.get fallback) = t.toList := by
  have hlength : (indices t.shape).length = t.toList.length := by rw [length_indices, toList, Array.length_toList, t.size_eq]
  refine List.ext_getElem (by rw [List.length_map, hlength]) fun k hk hk' => ?_
  rw [List.length_map] at hk
  have hinside : Inside (indices t.shape)[k] t.shape := mem_indices.1 (List.getElem_mem hk)
  -- the multi-index at place k stands at its offset as well, and no multi-index stands at two places
  obtain ⟨hlt, hsame⟩ := List.getElem?_eq_some_iff.1 (getElem?_indices hinside)
  have hoffset : offset t.shape (indices t.shape)[k] = k := (nodup_indices t.shape).getElem_inj_iff.1 hsame
  have hsize : k < t.entries.size := by simpa [toList] using hk'
  simp [get, hoffset, toList, Array.getD_eq_getD_getElem?, hsize]

theorem get_map (f : α → β) (t : Tensor α) (fallback : α) (ix : List Nat) :
    (t.map f).get (f fallback) ix = f (t.get fallback ix) := by
  simp only [get, map, Array.getD_eq_getD_getElem?, Array.getElem?_map]
  cases t.entries[offset t.shape ix]? <;> rfl

theorem toList_map (f : α → β) (t : Tensor α) : (t.map f).toList = t.toList.map f := by simp [toList, map]

theorem map_map (f : α → β) (g : β → γ) (t : Tensor α) : (t.map f).map g = t.map fun a => g (f a) := by
  refine eq_of_toList rfl ?_
  rw [toList_map, toList_map, toList_map, List.map_map]
  rfl

/-- inside the shape the entry is there, so it does not matter what stands for a missing one -/
theorem get_map_of_inside (f : α → β) {t : Tensor α} {ix : List ℕ} (h : Inside ix t.shape) (fallback : α) (fallback' : β) :
    (t.map f).get fallback' ix = f (t.get fallback ix) := by
  obtain ⟨hlt, -⟩ := List.getElem?_eq_some_iff.1 (getElem?_indices h)
  rw [length_indices, ← t.size_eq] at hlt
  simp [get, map, Array.getD_eq_getD_getElem?, hlt]

/-- reading cell by cell keeps the shape -/
theorem shape_mapE {ε : Type} {f : α → Except ε β} {t : Tensor α} {u : Tensor β} (h : t.mapE f = .ok u) : u.shape = t.shape := by
  unfold mapE at h
  split at h
  · cases h
  · cases h
    rfl

@[simp] theorem toGrid?_ofGrid {d : Nat} (g : Grid d α) : (ofGrid g).toGrid? = some ⟨d, g⟩ := by
  simp [toGrid?, ofGrid]

@[simp] theorem toGridOf?_ofGrid {d : Nat} (g : Grid d α) : (ofGrid g).toGridOf? d = some g := by
  simp [toGridOf?, ofGrid]

theorem toList_ofGrid {d : Nat} (g : Grid d α) : (ofGrid g).toList = g.toList := rfl

theorem map_ofGrid {d : Nat} (f : α → β) (g : Grid d α) : (ofGrid g).map f = ofGrid (g.map f) := by
  simp [map, ofGrid, Grid.map]

theorem get_ofGrid {d : Nat} (g : Grid d α) (fallback : α) (r c : Fin d) :
    (ofGrid g).get fallback [r.val, c.val] = g.get r c := by
  have hlt : r.val * d + c.val < d * d := Grid.cell_lt r c
  simp [get, ofGrid, Grid.get, offset, shapeSize, Array.getD_eq_getD_getElem?, hlt]

theorem get_transpose_ofGrid {d : Nat} (g : Grid d α) (fallback : α) (r c : Fin d) :
    ((ofGrid g).transpose fallback).get fallback [r.val, c.val] = g.get c r := by
  have hinside : Inside [r.val, c.val] (ofGrid g).shape.reverse := inside_pair r c
  rw [transpose, get_ofFn _ _ _ hinside]
  exact get_ofGrid g fallback c r

end Tensor

/-! ## Shapes that fit -/

/-- two shapes fit: aligned at their last axes, extents are equal or one of them is one -/
def Fits (s t : List Nat) : Prop := ∀ k m n : Nat, s.reverse[k]? = some m → t.reverse[k]? = some n → m = n ∨ m = 1 ∨ n = 1

theorem fittedExtent?_eq_none_iff {m n : Nat} : fittedExtent? m n = none ↔ ¬(m = n ∨ m = 1 ∨ n = 1) := by
  unfold fittedExtent?
  grind

theorem fittedReversed?_eq_none_iff {s t : List Nat} :
    fittedReversed? s t = none ↔ ∃ k m n : Nat, s[k]? = some m ∧ t[k]? = some n ∧ fittedExtent? m n = none := by
  induction s generalizing t with
  | nil => simp [fittedReversed?]
  | cons m s ih =>
    cases t with
    | nil => simp [fittedReversed?]
    | cons n t =>
      have hnone : fittedReversed? (m :: s) (n :: t) = none ↔ fittedExtent? m n = none ∨ fittedReversed? s t = none := by
        rw [fittedReversed?]
        cases fittedExtent? m n <;> cases fittedReversed? s t <;> simp
      rw [hnone, ih]
      constructor
      · rintro (h | ⟨k, i, j, hi, hj, h⟩)
        · exact ⟨0, m, n, rfl, rfl, h⟩
        · exact ⟨k + 1, i, j, hi, hj, h⟩
      · rintro ⟨_ | k, i, j, hi, hj, h⟩
        · cases hi
          cases hj
          exact .inl h
        · exact .inr ⟨k, i, j, hi, hj, h⟩

/-- **Shapes have a common one exactly if they fit.** -/
theorem fitted?_eq_none_iff {s t : List Nat} : fitted? s t = none ↔ ¬Fits s t := by
  rw [fitted?, Option.map_eq_none_iff, fittedReversed?_eq_none_iff]
  simp only [fittedExtent?_eq_none_iff, Fits, not_forall, exists_prop]

theorem fittedReversed?_same (s : List Nat) : fittedReversed? s s = some s := by
  induction s with
  | nil => rfl
  | cons n s ih => rw [fittedReversed?, fittedExtent?, if_pos rfl, ih]; rfl

theorem fitted?_same (s : List Nat) : fitted? s s = some s := by
  rw [fitted?, fittedReversed?_same, Option.map_some, List.reverse_reverse]

theorem fitted?_nil (s : List ℕ) : fitted? s [] = some s := by
  have hreversed : ∀ t : List ℕ, fittedReversed? t [] = some t := by
    intro t
    cases t with
    | nil => rfl
    | cons n t => rw [fittedReversed?]; exact nofun
  rw [fitted?, List.reverse_nil, hreversed, Option.map_some, List.reverse_reverse]

/-- an axis of extent one has index zero only, so no index changes -/
theorem project_same {ix s : List Nat} (h : Inside ix s) : project s ix = ix := by
  have hdrop : ix.length - s.length = 0 := by rw [h.length_eq, Nat.sub_self]
  rw [project, hdrop, List.drop_zero]
  induction h with
  | nil => rfl
  | @cons i n ix s hi hix ih =>
    rw [List.zip_cons_cons, List.map_cons, ih (by rw [hix.length_eq, Nat.sub_self])]
    congr 1
    simp only
    split <;> omega

section Fitted

variable {α β γ : Type} (f : α → β → γ) (x : Tensor α) (y : Tensor β) (fx : α) (fy : β)

/-- **Arrays that fit are combined entry by entry** over their common shape. -/
theorem Tensor.zipFitted?_of_fitted {s : List Nat} (h : fitted? x.shape y.shape = some s) :
    ∃ t, Tensor.zipFitted? f x y fx fy = some t ∧ t.shape = s ∧
      ∀ fallback ix, Inside ix s → t.get fallback ix = f (x.get fx (project x.shape ix)) (y.get fy (project y.shape ix)) := by
  refine ⟨_, by rw [zipFitted?, h]; rfl, shape_ofFn _ _, fun fallback ix hix => ?_⟩
  rw [get_ofFn _ _ _ hix]

/-- arrays of one shape are combined entry by entry -/
theorem Tensor.zipFitted?_same (h : y.shape = x.shape) :
    ∃ t, Tensor.zipFitted? f x y fx fy = some t ∧ t.shape = x.shape ∧
      ∀ fallback ix, Inside ix x.shape → t.get fallback ix = f (x.get fx ix) (y.get fy ix) := by
  obtain ⟨t, ht, hshape, hget⟩ := zipFitted?_of_fitted f x y fx fy (by rw [h]; exact fitted?_same x.shape)
  refine ⟨t, ht, hshape, fun fallback ix hix => ?_⟩
  rw [hget fallback ix hix, h, project_same hix]

end Fitted

/-- cells combined with the one entry of an array without axes -/
theorem Tensor.zipFitted?_single {α β γ : Type} (f : α → β → γ) (t : Tensor α) (u : Tensor β) (hu : u.shape = []) (fa : α) (fb : β) :
    Tensor.zipFitted? f t u fa fb = some (t.map fun a => f a (u.get fb [])) := by
  have hfit : fitted? t.shape u.shape = some t.shape := by rw [hu, fitted?_nil]
  obtain ⟨z, hz, hshape, hget⟩ := zipFitted?_of_fitted f t u fa fb hfit
  rw [hz, eq_of_toList (u := t.map fun a => f a (u.get fb [])) hshape]
  rw [← map_get_indices z (f fa fb), hshape, toList_map, ← map_get_indices t fa, List.map_map]
  refine List.map_congr_left fun ix hix => ?_
  have hinside : Inside ix t.shape := mem_indices.1 hix
  have hnone : project u.shape ix = [] := by
    rw [hu]
    rfl
  rw [hget _ ix hinside, hnone, project_same hinside]
  rfl

end MomentProgram
