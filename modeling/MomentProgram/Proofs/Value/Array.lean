/-
Reading lists of numbers and typed arrays.

A list of values that are single cells is an array of one axis with these cells (`cells_list`), a list of such lists of one length is an
array of two axes with the cells row by row (`cells_rows`), and a typed array is an array of its shape whose cells are its numbers, sized
(`cells_array`). An array is read cell by cell, so where the reading of every cell is known
the reading of the whole is (`mapE_of_forall₂`): doubles are always read as they are (`toFloats_floats`), whole numbers if 64 bits
hold them (`toInts_ints`), and a typed array of doubles is read as itself (`toTensor_doubles`).
-/
import Mathlib
import MomentProgram.Proofs.Array.Tensor
import MomentProgram.Shown

namespace MomentProgram

variable {ε α β : Type}

/-- a list of values of which each is read as a known number -/
theorem eachEntry_of_forall₂ {f : α → Except ε β} {l : List α} {bs : List β} (h : List.Forall₂ (fun a b => f a = .ok b) l bs) :
    eachEntry f l = .ok ⟨bs, h.length_eq.symm⟩ := by
  induction h with
  | nil => rfl
  | cons ha _ ih => simp only [eachEntry, ha, ih]

/-- **An array is read cell by cell** and keeps its shape. -/
theorem Tensor.mapE_of_forall₂ {f : α → Except ε β} {t : Tensor α} {bs : List β}
    (h : List.Forall₂ (fun a b => f a = .ok b) t.toList bs) :
    ∃ r, t.mapE f = .ok r ∧ r.shape = t.shape ∧ r.toList = bs := by
  have hread : eachEntry f t.entries.toList = .ok ⟨bs, h.length_eq.symm⟩ := eachEntry_of_forall₂ h
  unfold Tensor.mapE
  simp only [hread]
  exact ⟨_, rfl, rfl, rfl⟩

/-- an array whose cells are all read as known is read as the array of these -/
theorem Tensor.mapE_map {γ : Type} {f : β → Except ε γ} {g : α → β} {r : α → γ} (t : Tensor α) (h : ∀ a, f (g a) = .ok (r a)) :
    (t.map g).mapE f = .ok (t.map r) := by
  have hread : List.Forall₂ (fun b c => f b = .ok c) (t.map g).toList (t.map r).toList := by
    rw [toList_map, toList_map, List.forall₂_map_left_iff, List.forall₂_map_right_iff, List.forall₂_same]
    intro a _
    exact h a
  obtain ⟨u, hu, hshape, hlist⟩ := mapE_of_forall₂ hread
  rw [hu, eq_of_toList hshape hlist]

namespace Value

/-! ## The cells of a list and of a typed array -/

/-- a value that is one cell by itself -/
structure IsCell (v : Value) : Prop where
  shape : v.shape? = some []
  leaves : ∀ typed, v.leaves typed = [v]

theorem isCell_number (n : Number) (c : Option Cell) : IsCell (.number n c) where
  shape := by rw [shape?]; all_goals simp
  leaves typed := by rw [Value.leaves]; all_goals simp

variable {vs : List Value}

theorem shapes?_cells (h : ∀ v ∈ vs, IsCell v) : shapes? vs = some (List.replicate vs.length []) := by
  induction vs with
  | nil => rw [shapes?]; rfl
  | cons v vs ih =>
    have hv := h v List.mem_cons_self
    rw [shapes?, hv.shape, ih fun w hw => h w (List.mem_cons_of_mem v hw)]
    rfl

theorem leavesOf_cells (typed : Cell → Number → Value) (h : ∀ v ∈ vs, IsCell v) : leavesOf typed vs = vs := by
  induction vs with
  | nil => rw [leavesOf]
  | cons v vs ih =>
    have hv := h v List.mem_cons_self
    rw [leavesOf, hv.leaves, ih fun w hw => h w (List.mem_cons_of_mem v hw)]
    rfl

theorem shape?_list (h : ∀ v ∈ vs, IsCell v) : (Value.list vs).shape? = some [vs.length] := by
  rw [shape?, listShape?, shapes?_cells h]
  cases vs with
  | nil => rfl
  | cons v vs => simp [List.replicate_succ]

theorem leaves_list (typed : Cell → Number → Value) (h : ∀ v ∈ vs, IsCell v) : (Value.list vs).leaves typed = vs := by
  rw [leaves, leavesOf_cells typed h]

/-- a value of a known shape with as many cells as the shape has -/
theorem cells_of_shape {v : Value} {shape : List Nat} {ls : List Value} (haxes : shape.length ≤ axisLimit) (hshape : v.shape? = some shape)
    (hleaves : v.leaves sizedEntry = ls) (hlength : ls.length = shapeSize shape) :
    ∃ t, v.cells = .ok t ∧ t.shape = shape ∧ t.toList = ls := by
  have hfilled : Tensor.ofList? shape ls = some ⟨shape, ls.toArray, by simpa using hlength⟩ := dif_pos hlength
  refine ⟨⟨shape, ls.toArray, by simpa using hlength⟩, ?_, rfl, rfl⟩
  unfold cells cellsWith
  rw [hshape]
  simp only [if_neg (Nat.not_lt.2 haxes), hleaves, hfilled]

/-- **A list of single cells is an array of one axis.** -/
theorem cells_list (h : ∀ v ∈ vs, IsCell v) : ∃ t, (Value.list vs).cells = .ok t ∧ t.shape = [vs.length] ∧ t.toList = vs := by
  refine cells_of_shape ?_ (shape?_list h) (leaves_list _ h) (by simp [shapeSize])
  rw [List.length_singleton]
  decide

section Rows

variable {rows : List (List Value)} {n : Nat}

theorem shapes?_rows (h : ∀ row ∈ rows, ∀ v ∈ row, IsCell v) (hn : ∀ row ∈ rows, row.length = n) :
    shapes? (rows.map .list) = some (List.replicate rows.length [n]) := by
  induction rows with
  | nil => rw [List.map_nil, shapes?]; rfl
  | cons row rows ih =>
    rw [List.map_cons, shapes?, shape?_list (h row List.mem_cons_self), hn row List.mem_cons_self,
      ih (fun r hr => h r (List.mem_cons_of_mem row hr)) fun r hr => hn r (List.mem_cons_of_mem row hr)]
    rfl

theorem leavesOf_rows (typed : Cell → Number → Value) (h : ∀ row ∈ rows, ∀ v ∈ row, IsCell v) :
    leavesOf typed (rows.map .list) = rows.flatten := by
  induction rows with
  | nil => rw [List.map_nil, leavesOf]; rfl
  | cons row rows ih =>
    rw [List.map_cons, leavesOf, leaves_list typed (h row List.mem_cons_self), ih fun r hr => h r (List.mem_cons_of_mem row hr)]
    rfl

/-- **A list of lists of one length is an array of two axes,** as soon as there is one of them. -/
theorem cells_rows (hrows : rows ≠ []) (h : ∀ row ∈ rows, ∀ v ∈ row, IsCell v) (hn : ∀ row ∈ rows, row.length = n) :
    ∃ t, (Value.list (rows.map .list)).cells = .ok t ∧ t.shape = [rows.length, n] ∧ t.toList = rows.flatten := by
  have hlengths : rows.map List.length = List.replicate rows.length n := List.map_eq_replicate_iff.2 hn
  refine cells_of_shape ?_ ?_ ?_ ?_
  · rw [List.length_cons, List.length_singleton]
    decide
  · rw [shape?, listShape?, shapes?_rows h hn]
    cases rows with
    | nil => exact absurd rfl hrows
    | cons row rows => simp [List.replicate_succ]
  · rw [leaves, leavesOf_rows _ h]
  · rw [List.length_flatten, hlengths, List.sum_replicate, smul_eq_mul]
    simp [shapeSize]

end Rows

/-- numbers of typed arrays make no difference where there are none -/
theorem cellsWith_congr {v : Value} {typed typed' : Cell → Number → Value} (h : v.leaves typed = v.leaves typed') :
    v.cellsWith typed = v.cellsWith typed' := by
  unfold cellsWith
  rw [h]

/-- **A typed array has its numbers as cells.** -/
theorem cells_array (c : Cell) {shape : List Nat} {ns : List Number} (haxes : shape.length ≤ axisLimit) (h : ns.length = shapeSize shape) :
    ∃ t, (Value.array c shape ns).cells = .ok t ∧ t.shape = shape ∧ t.toList = ns.map (sizedEntry c) := by
  refine cells_of_shape haxes ?_ ?_ (by rw [List.length_map, h])
  · rw [shape?]
  · rw [leaves]

/-! ## What is read -/

/-- **A list of doubles is read as an array of the same numbers.** -/
theorem toTensor_floats (xs : List Float) : ∃ t : Tensor Float, (Value.list (xs.map ofFloat)).toTensor = .ok t ∧ t.toList = xs := by
  have hcell : ∀ v ∈ xs.map ofFloat, IsCell v := by
    intro v hv
    obtain ⟨x, -, rfl⟩ := List.mem_map.1 hv
    exact isCell_number _ _
  obtain ⟨t, ht, -, hlist⟩ := cells_list hcell
  have hread : List.Forall₂ (fun v x => cellToFloat v = .ok x) t.toList xs := by
    rw [hlist, List.forall₂_map_left_iff, List.forall₂_same]
    exact fun x _ => rfl
  obtain ⟨r, hr, -, hxs⟩ := Tensor.mapE_of_forall₂ hread
  exact ⟨r, by rw [toTensor, ht]; exact hr, hxs⟩

theorem toFloats_floats (xs : List Float) : (Value.list (xs.map ofFloat)).toFloats = .ok xs := by
  obtain ⟨t, ht, rfl⟩ := toTensor_floats xs
  rw [toFloats, ht]
  rfl

/-- a list of whole numbers is read as the same numbers if 64 bits hold them all -/
theorem toInts_ints {ns : List Int} (h : ∀ n ∈ ns, fitsWord n = true) : (Value.list (ns.map ofInt)).toInts = .ok ns := by
  have hcell : ∀ v ∈ ns.map ofInt, IsCell v := by
    intro v hv
    obtain ⟨n, -, rfl⟩ := List.mem_map.1 hv
    exact isCell_number _ _
  obtain ⟨t, ht, -, hlist⟩ := cells_list hcell
  have hread : List.Forall₂ (fun v n => cellToWord v = .ok n) t.toList ns := by
    rw [hlist, List.forall₂_map_left_iff, List.forall₂_same]
    intro n hn
    show word n = .ok n
    rw [word, if_pos (h n hn)]
  obtain ⟨r, hr, -, hns⟩ := Tensor.mapE_of_forall₂ hread
  rw [toInts, toIntTensor, ht]
  change (t.mapE cellToWord).map Tensor.toList = .ok ns
  rw [hr, ← hns]
  rfl

/-- **A typed array of doubles is read as itself.** -/
theorem toTensor_doubles {shape : List Nat} {xs : List Float} (haxes : shape.length ≤ axisLimit) (h : xs.length = shapeSize shape) :
    ∃ t, (ofDoubles shape xs).toTensor = .ok t ∧ t.shape = shape ∧ t.toList = xs := by
  have hlength : (xs.map Number.float).length = shapeSize shape := by rw [List.length_map, h]
  obtain ⟨t, ht, hshape, hlist⟩ := cells_array (.float .double) haxes hlength
  have hread : List.Forall₂ (fun v x => cellToFloat v = .ok x) t.toList xs := by
    rw [hlist, List.map_map, List.forall₂_map_left_iff, List.forall₂_same]
    exact fun x _ => rfl
  obtain ⟨r, hr, hrshape, hxs⟩ := Tensor.mapE_of_forall₂ hread
  exact ⟨r, by rw [ofDoubles, toTensor, ht]; exact hr, hrshape.trans hshape, hxs⟩

end Value

end MomentProgram
