/-
The packed layout of a triangle, read both ways.

`Packed.cells` lists the lower triangle column by column. The cell of row r and column c ≤ r stands at
`position d r c = c·d - c(c - 1)/2 + (r - c)` (`getElem?_cells`): the columns before it hold that many cells, because the first n
columns of a d × d triangle hold n·d - n(n - 1)/2 (`length_columns`). A list of values scattered over cells that are all different
is read back at every one of them (`get_scatter_getElem`). Unpacking scatters twice: the second pass meets the diagonal cells with
the values they have and no cell below the diagonal, so neither pass undoes the other (`get_toGrid`).

`packed_layout_round_trip` puts the two together: packing is the closed form, and packing and unpacking are inverse to each other on
symmetric arrays and on lists of the right length. Everything else is refused by value.
-/
import Mathlib
import MomentProgram.Symmetric.Packed

namespace MomentProgram

/-! ## Scattered values -/

namespace Grid

variable {d : Nat} {α : Type}

theorem scatter_cons (g : Grid d α) (p : Fin d × Fin d) (ps : List (Fin d × Fin d)) (a : α) (vs : List α) :
    g.scatter (p :: ps) (a :: vs) = (g.set p.1 p.2 a).scatter ps vs := rfl

/-- a cell outside the list keeps its value -/
theorem get_scatter_of_notMem (g : Grid d α) (ps : List (Fin d × Fin d)) (vs : List α) (r c : Fin d) (h : (r, c) ∉ ps) :
    (g.scatter ps vs).get r c = g.get r c := by
  induction ps generalizing g vs with
  | nil => rfl
  | cons p ps ih =>
    cases vs with
    | nil => rfl
    | cons a vs =>
      simp only [List.mem_cons, not_or] at h
      rw [scatter_cons, ih _ _ h.2, get_set, if_neg]
      rintro ⟨rfl, rfl⟩
      exact h.1 rfl

/-- a cell of the list has the value that stands at its place, if no cell comes twice -/
theorem get_scatter_getElem (g : Grid d α) (ps : List (Fin d × Fin d)) (vs : List α) (hps : ps.Nodup) (i : Nat)
    (hi : i < ps.length) (hv : i < vs.length) : (g.scatter ps vs).get ps[i].1 ps[i].2 = vs[i] := by
  induction ps generalizing g vs i with
  | nil => simp at hi
  | cons p ps ih =>
    obtain ⟨hp, hps⟩ := List.nodup_cons.1 hps
    cases vs with
    | nil => simp at hv
    | cons a vs =>
      rw [scatter_cons]
      cases i with
      | zero => simp [get_scatter_of_notMem _ _ _ _ _ hp, get_set]
      | succ i => simpa using ih _ vs hps i (by simpa using hi) (by simpa using hv)

end Grid

namespace Packed

variable {d : Nat} {α : Type}

/-! ## Where a cell stands -/

/-- where the cell of row `r` and column `c ≤ r` stands -/
def position (d r c : Nat) : Nat := c * d - c * (c - 1) / 2 + (r - c)

/-- one column from the diagonal down -/
def column (c : Fin d) : List (Fin d × Fin d) := ((List.finRange d).filter fun r => c ≤ r).map fun r => (r, c)

theorem filter_le_finRange (c : Fin d) : ((List.finRange d).filter fun r => c ≤ r) = (List.finRange d).drop c := by
  conv_lhs => rw [← List.take_append_drop c.val (List.finRange d), List.filter_append]
  have hbefore : ((List.finRange d).take c).filter (fun r => c ≤ r) = [] := by
    rw [List.filter_eq_nil_iff]
    intro r hr
    obtain ⟨i, hi, rfl⟩ := List.mem_take_iff_getElem.1 hr
    simp [Fin.le_def]
    omega
  have hafter : ((List.finRange d).drop c).filter (fun r => c ≤ r) = (List.finRange d).drop c := by
    rw [List.filter_eq_self]
    intro r hr
    obtain ⟨i, hi, rfl⟩ := List.mem_drop_iff_getElem.1 hr
    simp [Fin.le_def]
  rw [hbefore, hafter, List.nil_append]

theorem length_column (c : Fin d) : (column c).length = d - c := by
  simp [column, filter_le_finRange]

theorem getElem?_column (r c : Fin d) (h : c ≤ r) : (column c)[r.val - c.val]? = some (r, c) := by
  have hrc : c.val + (r.val - c.val) = r.val := by have := Fin.le_def.1 h; omega
  simp [column, filter_le_finRange, hrc]

theorem cells_eq_flatMap (d : Nat) : cells d = (List.finRange d).flatMap column := rfl

theorem mem_cells {p : Fin d × Fin d} : p ∈ cells d ↔ p.2 ≤ p.1 := by
  obtain ⟨r, c⟩ := p
  simp [cells_eq_flatMap, column]

theorem nodup_cells (d : Nat) : (cells d).Nodup := by
  rw [cells_eq_flatMap, List.nodup_flatMap]
  refine ⟨fun c _ => ((List.nodup_finRange d).filter _).map fun r s h => (Prod.ext_iff.1 h).1, ?_⟩
  refine (List.nodup_finRange d).imp fun {a b} hab => ?_
  rw [Function.onFun, List.disjoint_left]
  intro p ha hb
  obtain ⟨r, -, rfl⟩ := List.mem_map.1 ha
  obtain ⟨s, -, h⟩ := List.mem_map.1 hb
  exact hab (Prod.ext_iff.1 h).2.symm

/-- the first `n` columns hold `n·d - n(n - 1)/2` cells -/
theorem length_columns (d n : Nat) (hn : n ≤ d) :
    (((List.finRange d).take n).flatMap column).length = n * d - n * (n - 1) / 2 := by
  induction n with
  | zero => simp
  | succ n ih =>
    have hlt : n < (List.finRange d).length := by rw [List.length_finRange]; omega
    have htri := Nat.triangle_succ n
    have hle : n * (n - 1) / 2 ≤ n * d :=
      (Nat.div_le_self _ _).trans (Nat.mul_le_mul_left n (by omega))
    rw [List.take_succ_eq_append_getElem hlt, List.flatMap_append, List.length_append, ih (by omega),
      List.flatMap_singleton, length_column, htri]
    have hmul : (n + 1) * d = n * d + d := by ring
    simp only [List.getElem_finRange]
    rw [hmul]
    simp
    omega

theorem length_cells (d : Nat) : (cells d).length = d * (d + 1) / 2 := by
  have h := length_columns d d le_rfl
  rw [List.take_of_length_le (by simp), ← cells_eq_flatMap] at h
  have htri := Nat.triangle_succ d
  have hsq : (d + 1) * (d + 1 - 1) = d * (d + 1) := by rw [Nat.add_sub_cancel]; ring
  have heven : d * d = d * (d - 1) / 2 * 2 + d := by
    have h2 : d * (d - 1) / 2 * 2 = d * (d - 1) :=
      Nat.div_mul_cancel (Nat.even_mul_pred_self d).two_dvd
    cases d with
    | zero => rfl
    | succ d => rw [h2]; simp; ring
  rw [hsq] at htri
  omega

/-- **The layout in closed form.** The cell of row `r` and column `c ≤ r` stands at `position d r c`. -/
theorem getElem?_cells (r c : Fin d) (h : c ≤ r) : (cells d)[position d r c]? = some (r, c) := by
  have hc : c.val < (List.finRange d).length := by simp
  have hrest : (cells d).drop (((List.finRange d).take c).flatMap column).length =
      column c ++ ((List.finRange d).drop (c + 1)).flatMap column := by
    conv_lhs => rw [cells_eq_flatMap, ← List.take_append_drop c.val (List.finRange d), List.flatMap_append]
    rw [List.take_append_drop, List.drop_left, List.drop_eq_getElem_cons hc]
    simp
  have hlen : r.val - c.val < (column c).length := by
    rw [length_column]; have := Fin.le_def.1 h; omega
  calc (cells d)[position d r c]?
      = ((cells d).drop (((List.finRange d).take c).flatMap column).length)[r.val - c.val]? := by
        rw [List.getElem?_drop, length_columns d c (by omega), position]
    _ = (column c)[r.val - c.val]? := by rw [hrest, List.getElem?_append_left hlen]
    _ = some (r, c) := getElem?_column r c h

/-! ## Unpacking -/

variable [Scalar α]

/-- a number of the packed triangle is read back in its cell and in the mirrored one -/
theorem get_toGrid (v : List α) (hv : v.length = (cells d).length) (i : Nat) (hi : i < (cells d).length) :
    (toGrid d v).get (cells d)[i].1 (cells d)[i].2 = v[i] ∧ (toGrid d v).get (cells d)[i].2 (cells d)[i].1 = v[i] := by
  have hswap : ((cells d).map Prod.swap).Nodup := (nodup_cells d).map Prod.swap_injective
  have hupper : (toGrid d v).get (cells d)[i].2 (cells d)[i].1 = v[i] := by
    have h := Grid.get_scatter_getElem ((Grid.ofFn fun _ _ => Scalar.zero).scatter (cells d) v) _ v hswap i
      (by simpa using hi) (by omega)
    simpa [toGrid] using h
  refine ⟨?_, hupper⟩
  -- the second pass reaches a cell on or below the diagonal only where the two passes agree
  by_cases hdiag : (cells d)[i].1 = (cells d)[i].2
  · rw [← hupper, hdiag]
  · have hlower : (cells d)[i].2 ≤ (cells d)[i].1 := mem_cells.1 (List.getElem_mem hi)
    have hout : ((cells d)[i].1, (cells d)[i].2) ∉ (cells d).map Prod.swap := by
      intro hmem
      obtain ⟨p, hp, he⟩ := List.mem_map.1 hmem
      have hle := mem_cells.1 hp
      rw [Prod.ext_iff] at he
      rw [← he.1, ← he.2] at hlower hdiag
      exact hdiag (le_antisymm hle hlower)
    rw [toGrid, Grid.get_scatter_of_notMem _ _ _ _ _ hout]
    exact Grid.get_scatter_getElem _ _ v (nodup_cells d) i hi (by omega)

theorem get_toGrid_comm (v : List α) (hv : v.length = (cells d).length) (r c : Fin d) :
    (toGrid d v).get r c = (toGrid d v).get c r := by
  wlog h : c ≤ r generalizing r c
  · exact (this c r (le_of_not_ge h)).symm
  · obtain ⟨i, hi, he⟩ := List.getElem_of_mem (mem_cells (p := (r, c)) |>.2 h)
    have hboth := get_toGrid v hv i hi
    rw [he] at hboth
    exact hboth.1.trans hboth.2.symm

theorem ofGrid_toGrid (v : List α) (hv : v.length = (cells d).length) : ofGrid (toGrid d v) = v := by
  apply List.ext_getElem
  · simp [ofGrid, hv]
  · intro i h1 h2
    simpa [ofGrid] using (get_toGrid v hv i (by omega)).1

/-- on and below the diagonal, unpacking a packed array gives the array back -/
theorem get_toGrid_ofGrid (g : Grid d α) (r c : Fin d) (h : c ≤ r) : (toGrid d (ofGrid g)).get r c = g.get r c := by
  obtain ⟨i, hi, he⟩ := List.getElem_of_mem (mem_cells (p := (r, c)) |>.2 h)
  have hboth := get_toGrid (ofGrid g) (by simp [ofGrid]) i hi
  rw [he] at hboth
  rw [hboth.1]
  simp [ofGrid, he]

end Packed

/-! ## Packing and unpacking as asked for -/

section RoundTrip

variable {α : Type}

theorem packedLength_natCast (d : Nat) : packedLength d = ((d * (d + 1) / 2 : Nat) : Int) := by
  simp only [packedLength]
  rw [Int.fdiv_eq_ediv_of_nonneg _ (by norm_num)]
  push_cast
  rfl

theorem pack_ofGrid {d : Nat} (g : Grid d α) : pack (.ofGrid g) = .ok (Packed.ofGrid g) := by
  simp [pack, Tensor.toGrid?, Tensor.ofGrid]

theorem unpack_natCast [Scalar α] (d : Nat) (v : List α) (hv : v.length = d * (d + 1) / 2) :
    unpack (d : Int) v = .ok ⟨d, Packed.toGrid d v⟩ := by
  simp [unpack, packedLength_natCast, hv]

/-- a list of any other length is refused, and for a negative dimension every list -/
theorem unpack_refused [Scalar α] (dim : Int) (v : List α) (h : dim < 0 ∨ (v.length : Int) ≠ packedLength dim) :
    ∃ e, unpack dim v = .error e ∧ e.kind = .value := by
  unfold unpack
  by_cases hlen : (v.length : Int) = packedLength dim
  · have hneg : dim < 0 := h.resolve_right (fun hne => hne hlen)
    exact ⟨.negativeExtent, by simp [hlen, hneg], rfl⟩
  · exact ⟨.packedCount (toString dim) (toString (packedLength dim)) v.length, by simp [hlen], rfl⟩

/-- **The packed layout, both ways.** Packing a d × d array gives d(d + 1)/2 entries, the one of row r and column c ≤ r at
`position d r c`; unpacking them gives the symmetric array with the same lower triangle, so the array itself if it was symmetric.
Every list of that length unpacks to a symmetric array that packs to it. Any other length, and any negative dimension, is refused. -/
theorem packed_layout_round_trip [Scalar α] :
    (∀ (d : Nat) (M : Grid d α), ∃ v N, pack (.ofGrid M) = .ok v ∧
      (v.length : Int) = packedLength d ∧ v.length = d * (d + 1) / 2 ∧
      (∀ r c : Fin d, c ≤ r → v[Packed.position d r c]? = some (M.get r c)) ∧
      unpack (d : Int) v = .ok ⟨d, N⟩ ∧ (∀ r c, N.get r c = N.get c r) ∧
      (∀ r c, c ≤ r → N.get r c = M.get r c) ∧ ((∀ r c, M.get r c = M.get c r) → N = M)) ∧
    (∀ (d : Nat) (v : List α), v.length = d * (d + 1) / 2 →
      ∃ N, unpack (d : Int) v = .ok ⟨d, N⟩ ∧ (∀ r c, N.get r c = N.get c r) ∧ pack (.ofGrid N) = .ok v) ∧
    (∀ (dim : Int) (v : List α), dim < 0 ∨ (v.length : Int) ≠ packedLength dim →
      ∃ e, unpack dim v = .error e ∧ e.kind = .value) := by
  refine ⟨fun d M => ?_, fun d v hv => ?_, unpack_refused⟩
  · have hlen : (Packed.ofGrid M).length = (Packed.cells d).length := by simp [Packed.ofGrid]
    have hcount : (Packed.ofGrid M).length = d * (d + 1) / 2 := hlen.trans (Packed.length_cells d)
    have hlower : ∀ r c : Fin d, c ≤ r → (Packed.toGrid d (Packed.ofGrid M)).get r c = M.get r c :=
      Packed.get_toGrid_ofGrid M
    have hsymm := Packed.get_toGrid_comm (Packed.ofGrid M) hlen
    refine ⟨Packed.ofGrid M, Packed.toGrid d (Packed.ofGrid M), pack_ofGrid M, ?_, hcount, ?_, unpack_natCast d _ hcount,
      hsymm, hlower, fun hM => Grid.ext fun r c => ?_⟩
    · rw [packedLength_natCast, hcount]
    · intro r c h
      simp [Packed.ofGrid, Packed.getElem?_cells r c h]
    · rcases le_total c r with h | h
      · exact hlower r c h
      · rw [hsymm, hlower c r h, hM]
  · have hlen : v.length = (Packed.cells d).length := by rw [hv, Packed.length_cells]
    exact ⟨Packed.toGrid d v, unpack_natCast d v hv, Packed.get_toGrid_comm v hlen,
      by rw [pack_ofGrid, Packed.ofGrid_toGrid v hlen]⟩

/-- a 3 × 3 array of doubles that is not symmetric: its packed form, unpacked, has the lower triangle on both sides -/
theorem packed_layout_round_trip_three :
    let M : Grid 3 Float := .ofFn fun r c => (10 * r.val + c.val).toFloat
    ∃ v N, pack (.ofGrid M) = .ok v ∧ v[4]? = some (Float.ofNat 21) ∧ unpack 3 v = .ok ⟨3, N⟩ ∧ N.get 1 2 = Float.ofNat 21 := by
  intro M
  obtain ⟨v, N, hpack, -, -, hat, hunpack, hsymm, hlower, -⟩ := packed_layout_round_trip.1 3 M
  refine ⟨v, N, hpack, ?_, hunpack, ?_⟩
  · rw [show (4 : Nat) = Packed.position 3 (2 : Fin 3) (1 : Fin 3) from rfl, hat 2 1 (by decide), Grid.get_ofFn]
    rfl
  · rw [hsymm, hlower 2 1 (by decide), Grid.get_ofFn]
    rfl

end RoundTrip

end MomentProgram
