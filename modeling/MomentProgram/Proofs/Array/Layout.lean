/-
The order of the axes does not matter to what an array holds.

Axes are put in order one by one, each somewhere among those before it, so every order is an arrangement of all axes, whatever the
arrays say about their steps (`axisOrder_perm`). Walking an array along its axes in such an order visits the multi-indices of its shape
in another order, and each of them once (`orderedIndices_perm`): reading off a multi-index axis by axis in the order (`alongAxes`) is
the way back. Exact sums over the two walks are therefore equal.
-/
import MomentProgram.Array.Layout
import MomentProgram.Proofs.Array.Tensor

namespace MomentProgram

/-! ## Orders of the axes -/

theorem insertAxis_perm (arrays : List Steps) (slow : List Nat) (a : Nat) : (insertAxis arrays slow a).Perm (a :: slow) := by
  let past := passes arrays a 0 0 slow
  have hmoved : (slow.take past ++ a :: slow.drop past).Perm (a :: (slow.take past ++ slow.drop past)) := List.perm_middle
  rwa [List.take_append_drop] at hmoved

/-- **Every order has all axes,** each once. -/
theorem axisOrder_perm (arrays : List Steps) (axes : Nat) : (axisOrder arrays axes).Perm (List.range axes) := by
  have hfold : ∀ l slow : List Nat, (l.foldl (insertAxis arrays) slow).Perm (slow ++ l) := by
    intro l
    induction l with
    | nil => intro slow; rw [List.append_nil]; exact .refl _
    | cons a l ih =>
      intro slow
      exact (ih _).trans (((insertAxis_perm arrays slow a).append_right l).trans List.perm_middle.symm)
  exact hfold (List.range axes) []

/-! ## Walking along the axes -/

section Walk

variable {order shape : List Nat}

/-- a multi-index read off axis by axis, the slowest first -/
def alongAxes (order : List Nat) (ix : List Nat) : List Nat := order.map fun a => ix.getD (ix.length - 1 - a) 0

/-- the multi-index of a shape that is read off as a given one -/
def placedAxes (order : List Nat) (n : Nat) (jx : List Nat) : List Nat :=
  (List.range n).map fun p => jx.getD (order.idxOf (n - 1 - p)) 0

theorem extentAt_eq {a : Nat} (ha : a < shape.length) : extentAt shape a = shape[shape.length - 1 - a] := by
  have hlt : a < shape.reverse.length := by rwa [List.length_reverse]
  rw [extentAt, List.getD_eq_getElem _ _ hlt, List.getElem_reverse]

variable (h : order.Perm (List.range shape.length))
include h

theorem order_lt {a : Nat} (ha : a ∈ order) : a < shape.length := List.mem_range.1 (h.mem_iff.1 ha)

theorem placedAxes_alongAxes {ix : List Nat} (hix : ix.length = shape.length) :
    placedAxes order shape.length (alongAxes order ix) = ix := by
  refine List.ext_getElem (by simp [placedAxes, hix]) fun p hp hp' => ?_
  have hmem : shape.length - 1 - p ∈ order := h.mem_iff.2 (List.mem_range.2 (by omega))
  have hlt : order.idxOf (shape.length - 1 - p) < (alongAxes order ix).length := by
    rw [alongAxes, List.length_map]
    exact List.idxOf_lt_length_of_mem hmem
  have hback : ix.length - 1 - (shape.length - 1 - p) = p := by omega
  simp only [placedAxes, List.getElem_map, List.getElem_range]
  rw [List.getD_eq_getElem _ _ hlt]
  simp only [alongAxes, List.getElem_map, List.getElem_idxOf, hback]
  exact List.getD_eq_getElem _ _ hp'

theorem alongAxes_placedAxes {jx : List Nat} (hjx : jx.length = order.length) :
    alongAxes order (placedAxes order shape.length jx) = jx := by
  refine List.ext_getElem (by simp [alongAxes, hjx]) fun k hk hk' => ?_
  have hkorder : k < order.length := by rwa [← hjx]
  have hlt := order_lt h (List.getElem_mem hkorder)
  have hplace : shape.length - 1 - order[k] < (placedAxes order shape.length jx).length := by
    simp only [placedAxes, List.length_map, List.length_range]
    omega
  have hback : shape.length - 1 - (shape.length - 1 - order[k]) = order[k] := by omega
  have hsame : order.idxOf order[k] = k := (h.nodup_iff.2 List.nodup_range).idxOf_getElem k hkorder
  have hlength : (placedAxes order shape.length jx).length = shape.length := by simp [placedAxes]
  simp only [alongAxes, List.getElem_map, hlength]
  rw [List.getD_eq_getElem _ _ hplace]
  simp only [placedAxes, List.getElem_map, List.getElem_range, hback, hsame]
  exact List.getD_eq_getElem _ _ hk'

theorem inside_placedAxes {jx : List Nat} (hjx : Inside jx (order.map (extentAt shape))) :
    Inside (placedAxes order shape.length jx) shape := by
  obtain ⟨hlength, hbelow⟩ := List.forall₂_iff_get.1 hjx
  refine List.forall₂_iff_get.2 ⟨by simp [placedAxes], fun p hp hp' => ?_⟩
  have hmem : shape.length - 1 - p ∈ order := h.mem_iff.2 (List.mem_range.2 (by omega))
  have hidx := List.idxOf_lt_length_of_mem hmem
  have hidx' : order.idxOf (shape.length - 1 - p) < jx.length := by rwa [hlength, List.length_map]
  have hback : shape.length - 1 - (shape.length - 1 - p) = p := by omega
  have hlt := hbelow _ hidx' (by rwa [List.length_map])
  simp only [List.get_eq_getElem, List.getElem_map, List.getElem_idxOf] at hlt
  rw [extentAt_eq (by omega)] at hlt
  simp only [hback] at hlt
  simpa only [placedAxes, List.get_eq_getElem, List.getElem_map, List.getElem_range, List.getD_eq_getElem _ _ hidx'] using hlt

theorem inside_alongAxes {ix : List Nat} (hix : Inside ix shape) :
    Inside (alongAxes order ix) (order.map (extentAt shape)) := by
  obtain ⟨hlength, hbelow⟩ := List.forall₂_iff_get.1 hix
  refine List.forall₂_iff_get.2 ⟨by simp [alongAxes], fun k hk hk' => ?_⟩
  rw [List.length_map] at hk'
  have hlt := order_lt h (List.getElem_mem hk')
  have hplace : ix.length - 1 - order[k] < ix.length := by omega
  have := hbelow _ hplace (by omega)
  simp only [List.get_eq_getElem] at this
  simp only [alongAxes, List.get_eq_getElem, List.getElem_map, extentAt_eq hlt, List.getD_eq_getElem _ _ hplace]
  simpa only [hlength] using this

/-- **Walking along the axes visits every multi-index once.** -/
theorem orderedIndices_perm : (orderedIndices order shape).Perm (indices shape) := by
  have hwalk : orderedIndices order shape = (indices (order.map (extentAt shape))).map (placedAxes order shape.length) := rfl
  have hlength : ∀ jx ∈ indices (order.map (extentAt shape)), jx.length = order.length := fun jx hjx => by
    rw [(mem_indices.1 hjx).length_eq, List.length_map]
  have hnodup : (orderedIndices order shape).Nodup := by
    rw [hwalk]
    refine (nodup_indices _).map_on fun jx hjx kx hkx heq => ?_
    rw [← alongAxes_placedAxes h (hlength jx hjx), heq, alongAxes_placedAxes h (hlength kx hkx)]
  refine (List.perm_ext_iff_of_nodup hnodup (nodup_indices shape)).2 fun ix => ?_
  rw [hwalk, List.mem_map, mem_indices]
  constructor
  · rintro ⟨jx, hjx, rfl⟩
    exact inside_placedAxes h (mem_indices.1 hjx)
  · intro hix
    exact ⟨alongAxes order ix, mem_indices.2 (inside_alongAxes h hix), placedAxes_alongAxes h hix.length_eq⟩

end Walk

end MomentProgram
