/-
The canonical full form of a symmetric matrix.

Sorting puts the stored cells of both triangles in order by row and column (`pairwise_cells`), and as no cell comes twice there is
only one such order: the cells of a matrix do not depend on the order of its triples (`Reorders.cells_eq`), and neither does anything
computed from them, sums included, which are added in the order of the cells.

Compressed rows hold the same cells. On cells in order, those of the rows before r come first, so as many cells as have a smaller row
is where row r starts (`drop_countP`), and reading every row from its start to the next one gives the cells back
(`entries_compressed`). `Represents` collects what a reader of compressed rows relies on.
-/
import Mathlib
import MomentProgram.Proofs.Symmetric.Cells
import MomentProgram.Proofs.Symmetric.Keys

namespace MomentProgram

/-! ## Cells in order -/

section Order

variable {α : Type} {s t u : Triple α}

theorem Triple.before_iff : s.before t = true ↔ s.row < t.row ∨ s.row = t.row ∧ s.col < t.col := by
  simp [Triple.before]

theorem Triple.before_trans (hst : s.before t = true) (htu : t.before u = true) : s.before u = true := by
  rw [before_iff] at *
  omega

theorem Triple.not_before_of_before (h : s.before t = true) : ¬ t.before s = true := by
  rw [before_iff] at *
  omega

/-- of two different cells one comes first -/
theorem Triple.before_of_not_before (h : ¬ s.before t = true) (hne : (s.row, s.col) ≠ (t.row, t.col)) : t.before s = true := by
  rw [before_iff] at *
  rw [ne_eq, Prod.mk.injEq] at hne
  omega

variable {ts us : List (Triple α)}

theorem pairwise_insertTriple (h : ts.Pairwise fun s t => s.before t = true) (hnew : (t.row, t.col) ∉ ts.map fun s => (s.row, s.col)) :
    (insertTriple t ts).Pairwise fun s t => s.before t = true := by
  induction ts with
  | nil => exact List.pairwise_singleton _ _
  | cons s ts ih =>
    obtain ⟨hs, hts⟩ := List.pairwise_cons.1 h
    rw [List.map_cons, List.mem_cons, not_or] at hnew
    rw [insertTriple]
    split
    case isTrue hst =>
      refine List.pairwise_cons.2 ⟨fun u hu => ?_, ih hts hnew.2⟩
      rcases List.mem_cons.1 ((SymMatrix.insertTriple_perm t ts).mem_iff.1 hu) with rfl | hu
      · exact hst
      · exact hs u hu
    case isFalse hst =>
      have hts' : t.before s = true := Triple.before_of_not_before hst (Ne.symm hnew.1)
      refine List.pairwise_cons.2 ⟨fun u hu => ?_, h⟩
      rcases List.mem_cons.1 hu with rfl | hu
      · exact hts'
      · exact Triple.before_trans hts' (hs u hu)

/-- **Triples in different cells are sorted** by row, then by column. -/
theorem pairwise_sortTriples (h : (ts.map fun t => (t.row, t.col)).Nodup) :
    (sortTriples ts).Pairwise fun s t => s.before t = true := by
  induction ts with
  | nil => exact List.Pairwise.nil
  | cons t ts ih =>
    obtain ⟨hnew, hts⟩ := List.nodup_cons.1 h
    refine pairwise_insertTriple (ih hts) fun hmem => hnew ?_
    exact (((SymMatrix.sortTriples_perm ts).map _).mem_iff).1 hmem

/-- **Only one order is sorted.** -/
theorem sortTriples_eq_of_perm (hperm : ts.Perm us) (h : (ts.map fun t => (t.row, t.col)).Nodup) : sortTriples ts = sortTriples us := by
  have hus : (us.map fun t => (t.row, t.col)).Nodup := (hperm.map _).nodup_iff.1 h
  refine List.Perm.eq_of_pairwise ?_ (pairwise_sortTriples h) (pairwise_sortTriples hus) ?_
  · intro s t _ _ hst hts
    exact absurd hts (Triple.not_before_of_before hst)
  · exact (SymMatrix.sortTriples_perm ts).trans (hperm.trans (SymMatrix.sortTriples_perm us).symm)

end Order

/-! ## Lists on which a test holds first -/

section Leading

variable {β : Type} {p : β → Bool} {l : List β}

theorem filter_append_filter_not (h : l.Pairwise fun a b => p b = true → p a = true) :
    l.filter p ++ l.filter (fun a => !p a) = l := by
  induction l with
  | nil => rfl
  | cons a l ih =>
    obtain ⟨ha, hl⟩ := List.pairwise_cons.1 h
    by_cases hp : p a = true
    · rw [List.filter_cons_of_pos hp, List.filter_cons_of_neg (by simp [hp]), List.cons_append, ih hl]
    · have hnone : l.filter p = [] := List.filter_eq_nil_iff.2 fun b hb hpb => hp (ha b hb hpb)
      have hrest := ih hl
      rw [hnone, List.nil_append] at hrest
      rw [List.filter_cons_of_neg hp, List.filter_cons_of_pos (by simpa using hp), hnone, List.nil_append, hrest]

theorem take_countP (h : l.Pairwise fun a b => p b = true → p a = true) : l.take (l.countP p) = l.filter p := by
  conv_lhs => rw [← filter_append_filter_not h]
  exact List.take_left' (by rw [filter_append_filter_not h, List.countP_eq_length_filter])

theorem drop_countP (h : l.Pairwise fun a b => p b = true → p a = true) : l.drop (l.countP p) = l.filter fun a => !p a := by
  conv_lhs => rw [← filter_append_filter_not h]
  exact List.drop_left' (by rw [filter_append_filter_not h, List.countP_eq_length_filter])

end Leading

/-! ## Rows -/

section Rows

variable {α : Type} {cs : List (Triple α)}

/-- the cells of a row are those before the next row and not before this one -/
theorem filter_row (cs : List (Triple α)) (r : Nat) :
    (cs.filter fun t => decide (t.row < r + 1)).filter (fun t => !decide (t.row < r)) = cs.filter fun t => t.row == r := by
  rw [List.filter_filter]
  refine List.filter_congr fun t _ => ?_
  rw [Bool.eq_iff_iff]
  simp only [Bool.and_eq_true, Bool.not_eq_true', decide_eq_false_iff_not, decide_eq_true_eq, beq_iff_eq]
  omega

theorem filter_rows_before (cs : List (Triple α)) (r : Nat) :
    (cs.filter fun t => decide (t.row < r + 1)).filter (fun t => decide (t.row < r)) = cs.filter fun t => decide (t.row < r) := by
  rw [List.filter_filter]
  refine List.filter_congr fun t _ => ?_
  rw [Bool.eq_iff_iff]
  simp only [Bool.and_eq_true, decide_eq_true_eq]
  omega

variable (h : cs.Pairwise fun s t => s.row ≤ t.row)

include h

theorem rows_before_first (n : Nat) : cs.Pairwise fun s t => decide (t.row < n) = true → decide (s.row < n) = true := by
  refine h.imp fun {s t} hst ht => ?_
  simp only [decide_eq_true_eq] at *
  omega

/-- the cells of one row stand between the cells of smaller rows and those of larger ones -/
theorem slice_row (r : Nat) :
    (cs.drop (cs.countP fun t => decide (t.row < r))).take
        ((cs.countP fun t => decide (t.row < r + 1)) - cs.countP fun t => decide (t.row < r)) =
      cs.filter fun t => t.row == r := by
  have hcount : (cs.countP fun t => decide (t.row < r)) =
      (cs.filter fun t => decide (t.row < r + 1)).countP fun t => decide (t.row < r) := by
    rw [List.countP_eq_length_filter, List.countP_eq_length_filter, filter_rows_before]
  rw [← List.drop_take, take_countP (rows_before_first h (r + 1)), hcount, drop_countP ((rows_before_first h r).filter _), filter_row]

/-- rows put one after the other give the cells of all these rows -/
theorem flatMap_rows (n : Nat) :
    ((List.range n).flatMap fun r => cs.filter fun t => t.row == r) = cs.filter fun t => decide (t.row < n) := by
  induction n with
  | zero => simp
  | succ n ih =>
    calc ((List.range (n + 1)).flatMap fun r => cs.filter fun t => t.row == r)
        = (cs.filter fun t => decide (t.row < n)) ++ cs.filter fun t => t.row == n := by
          rw [List.range_succ, List.flatMap_append, ih, List.flatMap_singleton]
      _ = cs.filter fun t => decide (t.row < n + 1) := by
          rw [← filter_append_filter_not ((rows_before_first h n).filter fun t => decide (t.row < n + 1)), filter_rows_before, filter_row]

end Rows

/-! ## Compressed rows -/

namespace SymMatrix

variable {α : Type}

namespace Compressed

/-- the entries of a row, from where it starts to where the next one starts -/
def row (C : Compressed α) (r : Nat) : List (Nat × α) :=
  ((C.cols.zip C.values).drop (C.starts.getD r 0)).take (C.starts.getD (r + 1) 0 - C.starts.getD r 0)

/-- all entries with their rows, read row by row -/
def entries (C : Compressed α) : List (Triple α) :=
  (List.range C.dim).flatMap fun r => (C.row r).map fun p => ⟨r, p.1, p.2⟩

/-- what compressed rows of a matrix are: as many starts as rows and one more, from zero on and never falling, up to the count of
stored cells, twice the triples but the diagonal ones once; ascending columns in each row; as entries the triples and their mirrors with
the stored values, of which those on or below the diagonal are the triples -/
structure Represents (C : Compressed α) (A : SymMatrix α) : Prop where
  dim_eq : C.dim = A.dim
  starts_length : C.starts.length = A.dim + 1
  starts_head : C.starts.head? = some 0
  starts_sorted : C.starts.Pairwise (· ≤ ·)
  starts_last : C.starts.getLast? = some (2 * A.nnz - A.triples.countP fun t => t.row == t.col)
  cols_length : C.cols.length = 2 * A.nnz - A.triples.countP fun t => t.row == t.col
  values_length : C.values.length = C.cols.length
  ascending : ∀ r < A.dim, (C.row r).Pairwise fun p q => p.1 < q.1
  mem_entries : ∀ r c v, ⟨r, c, v⟩ ∈ C.entries ↔ ⟨max r c, min r c, v⟩ ∈ A.triples
  lower : (C.entries.filter fun t => decide (t.col ≤ t.row)).Perm A.triples

end Compressed

variable (A : SymMatrix α)

/-- **The stored cells are in order** by row, then by column. -/
theorem pairwise_cells : A.cells.Pairwise fun s t => s.before t = true := pairwise_sortTriples A.nodup_places

theorem row_lt_of_mem_cells {t : Triple α} (ht : t ∈ A.cells) : t.row < A.dim := (A.place_lt (A.cells_perm.mem_iff.1 ht)).1

theorem rows_cells : A.cells.Pairwise fun s t => s.row ≤ t.row := by
  refine A.pairwise_cells.imp fun {s t} hst => ?_
  rw [Triple.before_iff] at hst
  omega

/-- a triple off the diagonal is stored twice -/
theorem length_cells_eq : A.cells.length = 2 * A.nnz - A.triples.countP fun t => t.row == t.col := by
  have hsplit := List.length_eq_countP_add_countP (fun t : Triple α => t.row == t.col) (l := A.triples)
  have hoff : A.mirrored.length = A.triples.countP fun t => ¬ (t.row == t.col) = true := by
    rw [mirrored, List.length_map, List.countP_eq_length_filter]
    congr 1
    refine List.filter_congr fun t _ => ?_
    rw [Bool.eq_iff_iff]
    simp
  rw [A.cells_perm.length_eq, List.length_append, hoff, nnz]
  omega

theorem getD_starts {r : Nat} (hr : r ≤ A.dim) : A.compressed.starts.getD r 0 = A.cells.countP fun t => decide (t.row < r) := by
  have hlt : r < (List.range (A.dim + 1)).length := by
    rw [List.length_range]
    omega
  simp only [compressed, List.getD_eq_getElem?_getD, List.getElem?_map, List.getElem?_eq_getElem hlt, List.getElem_range,
    Option.map_some, Option.getD_some]

/-- **A compressed row holds the cells of that row.** -/
theorem row_compressed {r : Nat} (hr : r < A.dim) :
    A.compressed.row r = (A.cells.filter fun t => t.row == r).map fun t => (t.col, t.value) := by
  have hpairs : A.compressed.cols.zip A.compressed.values = A.cells.map fun t => (t.col, t.value) := List.zip_map'
  rw [Compressed.row, hpairs, A.getD_starts hr.le, A.getD_starts (Nat.succ_le_of_lt hr), ← List.map_drop, ← List.map_take,
    slice_row A.rows_cells]

/-- **Compressed rows, read row by row, are the stored cells.** -/
theorem entries_compressed : A.compressed.entries = A.cells := by
  have hrow : ∀ r ∈ List.range A.dim, (A.compressed.row r).map (fun p => (⟨r, p.1, p.2⟩ : Triple α)) =
      A.cells.filter fun t => t.row == r := by
    intro r hr
    rw [A.row_compressed (List.mem_range.1 hr), List.map_map]
    refine (List.map_congr_left fun t ht => ?_).trans (List.map_id _)
    obtain rfl : t.row = r := by simpa using (List.mem_filter.1 ht).2
    rfl
  have hall : A.cells.filter (fun t => decide (t.row < A.dim)) = A.cells := by
    rw [List.filter_eq_self]
    exact fun t ht => decide_eq_true (A.row_lt_of_mem_cells ht)
  calc A.compressed.entries
      = (List.range A.dim).flatMap fun r => A.cells.filter fun t => t.row == r := List.flatMap_congr hrow
    _ = A.cells.filter fun t => decide (t.row < A.dim) := flatMap_rows A.rows_cells A.dim
    _ = A.cells := hall

theorem mem_cells_iff {r c : Nat} {v : α} : ⟨r, c, v⟩ ∈ A.cells ↔ ⟨max r c, min r c, v⟩ ∈ A.triples := by
  rw [A.cells_perm.mem_iff, mem_full]
  rcases le_or_gt c r with hle | hlt
  · rw [max_eq_left hle, min_eq_right hle]
    simp only
    constructor
    · rintro (h | ⟨hlt, -⟩)
      · exact h
      · omega
    · exact Or.inl
  · rw [max_eq_right hlt.le, min_eq_left hlt.le]
    simp only
    constructor
    · rintro (h | ⟨-, h⟩)
      · have hle := A.lower _ h
        simp only at hle
        omega
      · exact h
    · exact fun h => Or.inr ⟨hlt, h⟩

theorem filter_lower_cells : (A.cells.filter fun t => decide (t.col ≤ t.row)).Perm A.triples := by
  refine (A.cells_perm.filter _).trans ?_
  have hlower : A.triples.filter (fun t => decide (t.col ≤ t.row)) = A.triples := by
    rw [List.filter_eq_self]
    exact fun t ht => by simpa using A.lower t ht
  have hmirrored : A.mirrored.filter (fun t => decide (t.col ≤ t.row)) = [] := by
    rw [List.filter_eq_nil_iff]
    intro t ht
    obtain ⟨s, hs, rfl⟩ := List.mem_map.1 ht
    obtain ⟨hs, hne⟩ := List.mem_filter.1 hs
    have hle := A.lower s hs
    simp only [bne_iff_ne, decide_eq_true_eq] at *
    omega
  rw [List.filter_append, hlower, hmirrored, List.append_nil]

/-- **The compressed form represents its matrix.** -/
theorem compressed_represents : A.compressed.Represents A where
  dim_eq := rfl
  starts_length := by simp [compressed]
  starts_head := by simp [compressed, List.range_succ_eq_map]
  starts_sorted := by
    refine List.pairwise_map.2 ((List.pairwise_lt_range).imp fun {m n} hmn => ?_)
    refine List.countP_mono_left fun t _ ht => ?_
    simp only [decide_eq_true_eq] at *
    omega
  starts_last := by
    have hall : (A.cells.countP fun t => decide (t.row < A.dim)) = A.cells.length := by
      rw [List.countP_eq_length]
      exact fun t ht => decide_eq_true (A.row_lt_of_mem_cells ht)
    simp [compressed, List.range_succ, hall, A.length_cells_eq]
  cols_length := by rw [← A.length_cells_eq]; simp [compressed]
  values_length := by simp [compressed]
  ascending r hr := by
    rw [A.row_compressed hr, List.pairwise_map]
    refine (A.pairwise_cells.filter _).imp_of_mem fun {s t} hs ht hst => ?_
    have hs : s.row = r := by simpa using (List.mem_filter.1 hs).2
    have ht : t.row = r := by simpa using (List.mem_filter.1 ht).2
    rw [Triple.before_iff] at hst
    simp only
    omega
  mem_entries r c v := by rw [A.entries_compressed, A.mem_cells_iff]
  lower := by rw [A.entries_compressed]; exact A.filter_lower_cells

/-! ## The same triples in another order -/

/-- a matrix with the triples of another one, in any order -/
structure Reorders (B A : SymMatrix α) : Prop where
  dim_eq : B.dim = A.dim
  perm : B.triples.Perm A.triples

/-- every order of the triples makes a matrix -/
theorem exists_reordering {ts : List (Triple α)} (h : ts.Perm A.triples) :
    ∃ B, ofTriples A.dim ts = .ok B ∧ B.triples = ts ∧ B.Reorders A := by
  have hlower : ∀ t ∈ ts, t.col ≤ t.row := fun t ht => A.lower t (h.mem_iff.1 ht)
  have hinside : ∀ t ∈ ts, t.row < A.dim := fun t ht => A.inside t (h.mem_iff.1 ht)
  have hkeyed : ts ≠ [] → A.dim < dimLimit := by
    intro hne
    refine A.keyed fun hnil => hne ?_
    rw [hnil] at h
    exact h.eq_nil
  have hdistinct : (ts.map fun t => cellKey A.dim t.row t.col).Nodup := (h.map _).nodup_iff.2 A.distinct
  obtain ⟨B, hB⟩ := ofTriples_of_nodup hlower hinside hkeyed hdistinct
  obtain ⟨hdim, htriples⟩ := ofTriples_ok hB
  exact ⟨B, hB, htriples, hdim, by rw [htriples]; exact h⟩

namespace Reorders

variable {A : SymMatrix α} {B : SymMatrix α} (h : B.Reorders A)

include h

/-- **The stored cells do not depend on the order of the triples.** -/
theorem cells_eq : B.cells = A.cells := by
  refine sortTriples_eq_of_perm (h.perm.append ?_) B.nodup_places
  exact (h.perm.filter _).map _

theorem storedAt_eq (r c : Nat) : B.storedAt r c = A.storedAt r c := by
  refine Option.ext fun v => ?_
  rw [storedAt_eq_some_iff, storedAt_eq_some_iff, h.perm.mem_iff]

theorem compressed_eq : B.compressed = A.compressed := by
  simp only [compressed, h.cells_eq, h.dim_eq]

theorem cell_eq [Scalar α] (r c : Nat) : B.cell r c = A.cell r c := by
  simp only [cell, h.storedAt_eq]

theorem dense_eq [Scalar α] (d : Nat) : B.dense d = A.dense d := by
  simp only [dense, h.cell_eq]

/-- **The inner product adds the same products in the same order.** -/
theorem innerAlong_eq [Add α] [Mul α] [Scalar α] (X : Tensor α) (steps : Steps) : B.innerAlong X steps = A.innerAlong X steps := by
  have hdense : Tensor.ofGrid (B.dense B.dim) = Tensor.ofGrid (A.dense A.dim) := by rw [h.dim_eq, h.dense_eq]
  have hproducts : B.products? X steps = A.products? X steps := by
    simp only [products?, allProducts?, storedProducts, hdense, h.cells_eq, h.dim_eq]
  rw [innerAlong, innerAlong, hproducts]

end Reorders

end SymMatrix

end MomentProgram
