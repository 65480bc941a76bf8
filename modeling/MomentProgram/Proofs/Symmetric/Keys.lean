/-
How far the check for repeated cells reaches.

A matrix tells its cells apart by `row * dim + col` modulo 2^64. Cells with different keys are different, so what is accepted never
holds a cell twice, whatever the dimension. Up to dimension 2^32 a key is below 2^64 before it is reduced and gives row and column
back (`cellKey_inj`), so nothing but a repeated cell is refused; the cells that a test picks from an array are never refused
(`ofTriples_lowerTriples`). Beyond, division of 2^64 by the dimension leaves quotient q and remainder s; adding q rows and s columns
then changes a key by 2^64, that is not at all, and both cells lie on or below the diagonal if the first one stands in row s - q of
column 0 (`exists_collision`).

- `duplicate_check_reach`: what is accepted, everything up to 2^32 that should be, and two cells that are confused for every
  dimension beyond.
- `duplicate_check_reach_edge`: both sides of the edge.
-/
import Mathlib
import MomentProgram.Symmetric.Stated
import MomentProgram.Proofs.Symmetric.Tagged
import MomentProgram.Proofs.Value.Array

namespace MomentProgram

/-! ## Keys -/

/-- **Up to dimension 2^32 a key determines its cell.** -/
theorem cellKey_inj {dim r c r' c' : Nat} (hdim : dim ≤ 2 ^ 32) (hr : r < dim) (hc : c < dim) (hr' : r' < dim) (hc' : c' < dim)
    (h : cellKey dim r c = cellKey dim r' c') : r = r' ∧ c = c' := by
  have hunreduced : ∀ a b, a < dim → b < dim → cellKey dim a b = a * dim + b := by
    intro a b ha hb
    apply Nat.mod_eq_of_lt
    calc a * dim + b < (a + 1) * dim := by rw [Nat.succ_mul]; exact Nat.add_lt_add_left hb _
      _ ≤ dim * dim := Nat.mul_le_mul_right dim ha
      _ ≤ 2 ^ 32 * 2 ^ 32 := Nat.mul_le_mul hdim hdim
      _ = Nat.pow 2 64 := rfl
  rw [hunreduced r c hr hc, hunreduced r' c' hr' hc'] at h
  constructor
  · have hrow := congrArg (· / dim) h
    simpa only [Grid.cell_div ⟨r, hr⟩ ⟨c, hc⟩, Grid.cell_div ⟨r', hr'⟩ ⟨c', hc'⟩] using hrow
  · have hcol := congrArg (· % dim) h
    simpa only [Grid.cell_mod ⟨r, hr⟩ ⟨c, hc⟩, Grid.cell_mod ⟨r', hr'⟩ ⟨c', hc'⟩] using hcol

/-- **Beyond dimension 2^32 two cells on or below the diagonal share a key.** -/
theorem exists_collision (dim : Nat) (hlo : 2 ^ 32 < dim) (hhi : dim < 2 ^ 63) :
    ∃ r c r' c', c ≤ r ∧ r < dim ∧ c' ≤ r' ∧ r' < dim ∧ r < r' ∧ cellKey dim r c = cellKey dim r' c' := by
  let q := 2 ^ 64 / dim
  let s := 2 ^ 64 % dim
  have hdivmod : q * dim + s = 2 ^ 64 := Nat.div_add_mod' _ _
  have hs : s < dim := Nat.mod_lt _ (by omega)
  have hpos : 0 < q := Nat.div_pos (by omega) (by omega)
  have hq : q < 2 ^ 32 := Nat.div_lt_of_lt_mul (by omega)
  refine ⟨s - q, 0, s - q + q, s, Nat.zero_le _, by omega, by omega, by omega, by omega, ?_⟩
  have hshift : (s - q + q) * dim + s = (s - q) * dim + 0 + 2 ^ 64 := by rw [Nat.add_mul, Nat.add_assoc, hdivmod, Nat.add_zero]
  rw [cellKey, cellKey, hshift]
  exact (Nat.add_mod_right _ _).symm

/-- **Up to 2^32 rows, picked cells have different keys,** whatever the number of columns. -/
theorem nodup_keys_lowerTriples {α : Type} {p q : Nat} (hp : p ≤ 2 ^ 32) (pick : Fin p → Fin q → Bool) (value : Fin p → Fin q → α) :
    ((lowerTriples pick value).map fun t => cellKey p t.row t.col).Nodup := by
  rw [List.Nodup, List.pairwise_map]
  refine (pairwise_lowerTriples pick value).imp_of_mem fun {s t} hs ht hbefore hkey => ?_
  obtain ⟨r, c, hle, -, rfl⟩ := mem_lowerTriples.1 hs
  obtain ⟨r', c', hle', -, rfl⟩ := mem_lowerTriples.1 ht
  have hcol : c.val < p := hle.trans_lt r.isLt
  have hcol' : c'.val < p := hle'.trans_lt r'.isLt
  obtain ⟨hr, hc⟩ := cellKey_inj hp r.isLt hcol r'.isLt hcol' hkey
  simp only [Triple.before, decide_eq_true_eq] at hbefore
  omega

/-! ## Matrices from three lists -/

namespace SymMatrix

variable {α : Type}

section Checked

variable {dim : Nat} {ts : List (Triple α)} (hl : ∀ t ∈ ts, t.col ≤ t.row) (hi : ∀ t ∈ ts, t.row < dim)
  (hk : ts ≠ [] → dim < dimLimit)

include hl hi hk

/-- triples on or below the diagonal and inside the matrix are accepted if their keys differ -/
theorem ofTriples_of_nodup (hd : (ts.map fun t => cellKey dim t.row t.col).Nodup) : ∃ A, ofTriples dim ts = .ok A := by
  refine ⟨⟨dim, ts, hl, hi, hk, hd⟩, ?_⟩
  unfold ofTriples
  rw [dif_pos hl, dif_pos hi, dif_pos hk, dif_pos hd]

/-- and refused as repeated if two keys are equal -/
theorem ofTriples_of_not_nodup (hd : ¬ (ts.map fun t => cellKey dim t.row t.col).Nodup) :
    ofTriples dim ts = .error .duplicateCell := by
  unfold ofTriples
  rw [dif_pos hl, dif_pos hi, dif_pos hk, dif_neg hd]

end Checked

/-- **Up to 2^32 rows, picked cells are always accepted.** -/
theorem ofTriples_lowerTriples {p q : Nat} (hp : p ≤ 2 ^ 32) (pick : Fin p → Fin q → Bool) (value : Fin p → Fin q → α) :
    ∃ A, ofTriples p (lowerTriples pick value) = .ok A := by
  refine ofTriples_of_nodup ?_ ?_ ?_ (nodup_keys_lowerTriples hp pick value)
  · intro t ht
    obtain ⟨r, c, hle, -, rfl⟩ := mem_lowerTriples.1 ht
    exact hle
  · intro t ht
    obtain ⟨r, c, -, -, rfl⟩ := mem_lowerTriples.1 ht
    exact r.isLt
  · intro _
    rw [dimLimit, Nat.pow_eq]
    omega

/-- the triples of three lists stand in the cells of the first two -/
theorem map_zipTriples {rows cols : List Int} {data : List α} (hr : rows.length = cols.length) (hc : cols.length = data.length) :
    (zipTriples rows cols data).map (fun t => (t.1, t.2.1)) = rows.zip cols := by
  induction rows generalizing cols data with
  | nil => simp [zipTriples]
  | cons r rows ih =>
    obtain ⟨c, cols, rfl⟩ := List.exists_cons_of_length_eq_add_one hr.symm
    obtain ⟨v, data, rfl⟩ := List.exists_cons_of_length_eq_add_one hc.symm
    simp only [List.length_cons, Nat.add_right_cancel_iff] at hr hc
    rw [zipTriples, List.map_cons, List.zip_cons_cons, ih hr hc]

/-- the cells of two lists are on or below the diagonal and inside the matrix -/
abbrev LowerCells (dim : Int) (rows cols : List Int) : Prop := ∀ p ∈ rows.zip cols, 0 ≤ p.2 ∧ p.2 ≤ p.1 ∧ p.1 < dim

/-- three lists that make a matrix: of one length, every cell on or below the diagonal and inside the matrix, none twice -/
structure LowerLists (dim : Int) (rows cols : List Int) (data : List α) : Prop where
  rows_length : rows.length = cols.length
  cols_length : cols.length = data.length
  lower : LowerCells dim rows cols
  distinct : (rows.zip cols).Nodup

variable {dim : Int} {rows cols : List Int} {data : List α}

/-- **Nothing is accepted that is no matrix.** Different keys belong to different cells, whatever the dimension. -/
theorem lowerLists_of_ok {A : SymMatrix α} (h : ofLists dim rows cols data = .ok A) : LowerLists dim rows cols data := by
  unfold ofLists at h
  dsimp only at h
  split_ifs at h with hneg hlengths habove hbefore
  have hplaces := map_zipTriples hlengths.1 hlengths.2
  obtain ⟨hdim, htriples⟩ := ofTriples_ok h
  refine ⟨hlengths.1, hlengths.2, ?_, ?_⟩
  · intro p hp
    rw [← hplaces] at hp
    obtain ⟨t, ht, rfl⟩ := List.mem_map.1 hp
    have hle : t.2.1 ≤ t.1 := by
      by_contra hlt
      exact habove (List.any_eq_true.2 ⟨t, ht, by simpa using hlt⟩)
    have hcol : 0 ≤ t.2.1 := by
      by_contra hlt
      exact hbefore (List.any_eq_true.2 ⟨t, ht, by simpa using hlt⟩)
    have hrow := A.inside ⟨t.1.toNat, t.2.1.toNat, t.2.2⟩ (htriples ▸ List.mem_map.2 ⟨t, ht, rfl⟩)
    rw [hdim] at hrow
    simp only at hrow
    exact ⟨hcol, hle, by omega⟩
  · have hkeys := A.distinct
    rw [htriples, List.map_map] at hkeys
    rw [← hplaces]
    refine List.Nodup.of_map (fun p : Int × Int => cellKey A.dim p.1.toNat p.2.toNat) ?_
    rw [List.map_map]
    exact hkeys

/-- lists of one length with cells on or below the diagonal come as far as the checks of their triples -/
theorem ofLists_eq_ofTriples (hr : rows.length = cols.length) (hc : cols.length = data.length) (hcells : LowerCells dim rows cols)
    (hlo : 0 ≤ dim) :
    ofLists dim rows cols data =
      ofTriples dim.toNat ((zipTriples rows cols data).map fun t => ⟨t.1.toNat, t.2.1.toNat, t.2.2⟩) := by
  have hcell : ∀ t ∈ zipTriples rows cols data, 0 ≤ t.2.1 ∧ t.2.1 ≤ t.1 := by
    intro t ht
    have hmem : (t.1, t.2.1) ∈ rows.zip cols := map_zipTriples hr hc ▸ List.mem_map.2 ⟨t, ht, rfl⟩
    obtain ⟨hcol, hle, -⟩ := hcells _ hmem
    exact ⟨hcol, hle⟩
  have habove : ((zipTriples rows cols data).any fun t => decide (t.1 < t.2.1)) = false := by
    rw [List.any_eq_false]
    intro t ht
    simpa using (hcell t ht).2
  have hbefore : ((zipTriples rows cols data).any fun t => decide (t.2.1 < 0)) = false := by
    rw [List.any_eq_false]
    intro t ht
    simpa using (hcell t ht).1
  unfold ofLists
  rw [if_neg (by omega), if_neg (not_not.2 ⟨hr, hc⟩)]
  simp only [habove, hbefore]
  rfl

/-- below dimension 2^63 such lists are accepted if and only if no two keys are equal, and are otherwise refused as repeating a cell -/
theorem ofLists_of_lowerCells (hr : rows.length = cols.length) (hc : cols.length = data.length) (hcells : LowerCells dim rows cols)
    (hlo : 0 ≤ dim) (hhi : dim < 2 ^ 63) :
    (((rows.zip cols).map fun p => cellKey dim.toNat p.1.toNat p.2.toNat).Nodup → ∃ A, ofLists dim rows cols data = .ok A) ∧
      (¬ ((rows.zip cols).map fun p => cellKey dim.toNat p.1.toNat p.2.toNat).Nodup →
        ofLists dim rows cols data = .error .duplicateCell) := by
  let ts : List (Triple α) := (zipTriples rows cols data).map fun t => ⟨t.1.toNat, t.2.1.toNat, t.2.2⟩
  have hchecked : ofLists dim rows cols data = ofTriples dim.toNat ts := ofLists_eq_ofTriples hr hc hcells hlo
  have hkeys : (rows.zip cols).map (fun p => cellKey dim.toNat p.1.toNat p.2.toNat) = ts.map fun t => cellKey dim.toNat t.row t.col := by
    rw [← map_zipTriples hr hc, List.map_map, List.map_map]
    rfl
  have hlower : ∀ t ∈ ts, t.col ≤ t.row ∧ t.row < dim.toNat := by
    intro t ht
    obtain ⟨s, hs, rfl⟩ := List.mem_map.1 ht
    have := hcells (s.1, s.2.1) (map_zipTriples hr hc ▸ List.mem_map.2 ⟨s, hs, rfl⟩)
    simp only at this ⊢
    omega
  have hlimit : dim.toNat < dimLimit := by
    rw [dimLimit, Nat.pow_eq]
    omega
  rw [hchecked, hkeys]
  constructor
  · exact ofTriples_of_nodup (fun t ht => (hlower t ht).1) (fun t ht => (hlower t ht).2) fun _ => hlimit
  · exact ofTriples_of_not_nodup (fun t ht => (hlower t ht).1) (fun t ht => (hlower t ht).2) fun _ => hlimit

/-- **Up to dimension 2^32 everything is accepted that is a matrix.** -/
theorem ofLists_of_lowerLists (h : LowerLists dim rows cols data) (hlo : 0 ≤ dim) (hhi : dim ≤ 2 ^ 32) :
    ∃ A, ofLists dim rows cols data = .ok A := by
  refine (ofLists_of_lowerCells h.rows_length h.cols_length h.lower hlo (by omega)).1 ?_
  refine h.distinct.map_on fun p hp q hq hkey => ?_
  have hp := h.lower p hp
  have hq := h.lower q hq
  obtain ⟨hrow, hcol⟩ := cellKey_inj (by omega) (by omega) (by omega) (by omega) (by omega) hkey
  exact Prod.ext (by omega) (by omega)

/-- **Beyond, two different cells are refused as repeated.** -/
theorem exists_confused (hlo : 2 ^ 32 < dim) (hhi : dim < 2 ^ 63) :
    ∃ r c r' c' : Int, (r, c) ≠ (r', c') ∧ LowerCells dim [r, r'] [c, c'] ∧
      ∀ v w : α, ofLists dim [r, r'] [c, c'] [v, w] = .error .duplicateCell := by
  obtain ⟨r, c, r', c', hc, hr, hc', hr', hlt, hkey⟩ := exists_collision dim.toNat (by omega) (by omega)
  have hcells : LowerCells dim [(r : Int), (r' : Int)] [(c : Int), (c' : Int)] := by
    intro p hp
    simp only [List.zip_cons_cons, List.zip_nil_right, List.mem_cons, List.not_mem_nil, or_false] at hp
    rcases hp with rfl | rfl
    · exact ⟨Int.natCast_nonneg c, Int.ofNat_le.2 hc, by simp only; omega⟩
    · exact ⟨Int.natCast_nonneg c', Int.ofNat_le.2 hc', by simp only; omega⟩
  refine ⟨r, c, r', c', ?_, hcells, fun v w => ?_⟩
  · intro heq
    have := congrArg Prod.fst heq
    simp only at this
    omega
  · have hrows : [(r : Int), (r' : Int)].length = [(c : Int), (c' : Int)].length := rfl
    have hdata : [(c : Int), (c' : Int)].length = [v, w].length := rfl
    refine (ofLists_of_lowerCells hrows hdata hcells (by omega) hhi).2 ?_
    simp [hkey]

end SymMatrix

/-! ## Lists of plain numbers -/

namespace StatedMatrix

/-- **Lists of numbers are read as they are,** as long as 64 bits hold the whole ones. -/
theorem ofValues_lists {dim : Value} (hdim : dim.belowZero = .ok false) {rows cols : List Int} {data : List Float}
    (hr : ∀ n ∈ rows, fitsWord n = true) (hc : ∀ n ∈ cols, fitsWord n = true) :
    ofValues dim (.list (rows.map .ofInt)) (.list (cols.map .ofInt)) (.list (data.map .ofFloat)) = ofLists dim hdim rows cols data := by
  unfold ofValues
  split
  · next e he => rw [hdim] at he; cases he
  · next hbelow => rw [hdim] at hbelow; cases hbelow
  · rw [Value.toInts_ints hr, Value.toInts_ints hc, Value.toFloats_floats]
    rfl

/-- the matrix of a whole number as dimension and of lists of whole numbers and of doubles -/
def ofNumbers (dim : Int) (rows cols : List Int) (data : List Float) : Outcome StatedMatrix :=
  ofValues (.ofInt dim) (.list (rows.map .ofInt)) (.list (cols.map .ofInt)) (.list (data.map .ofFloat))

theorem ofNumbers_eq {dim : Int} {rows cols : List Int} {data : List Float} (hdim : 0 ≤ dim)
    (hr : ∀ n ∈ rows, fitsWord n = true) (hc : ∀ n ∈ cols, fitsWord n = true) :
    ofNumbers dim rows cols data = ((SymMatrix.ofLists dim rows cols data).map .plain).mapError Fault.writable := by
  have hsign : (Value.ofInt dim).belowZero = .ok false := by
    have hcompare : compare (dim * (1 : Nat)) (0 * (1 : Nat)) ≠ .lt := by
      rw [ne_eq, compare_lt_iff_lt]
      omega
    show Except.ok (some (compare (dim * (1 : Nat)) (0 * (1 : Nat))) == some .lt) = _
    simpa using hcompare
  exact ofValues_lists hsign hr hc

end StatedMatrix

/-- **How far the check for repeated cells reaches.** Whatever the dimension, whole numbers of 64 bits as rows and columns and doubles as
values are accepted only if the three lists have one length, every cell is on or below the diagonal and inside the matrix, and no cell
comes twice. Up to dimension 2^32 all such lists are accepted. For every dimension beyond, below 2^63, there are two different cells on
or below the diagonal that are refused as one given twice, whatever their values. -/
theorem duplicate_check_reach :
    (∀ (dim : Int) (rows cols : List Int) (data : List Float), 0 ≤ dim →
      (∀ n ∈ rows, fitsWord n = true) → (∀ n ∈ cols, fitsWord n = true) →
      ((∃ A, StatedMatrix.ofNumbers dim rows cols data = .ok A) → SymMatrix.LowerLists dim rows cols data) ∧
        (dim ≤ 2 ^ 32 → SymMatrix.LowerLists dim rows cols data → ∃ A, StatedMatrix.ofNumbers dim rows cols data = .ok A)) ∧
    ∀ dim : Int, 2 ^ 32 < dim → dim < 2 ^ 63 →
      ∃ r c r' c' : Int, (r, c) ≠ (r', c') ∧ (0 ≤ c ∧ c ≤ r ∧ r < dim) ∧ (0 ≤ c' ∧ c' ≤ r' ∧ r' < dim) ∧
        ∀ v w : Float, StatedMatrix.ofNumbers dim [r, r'] [c, c'] [v, w] = .error .duplicateCell := by
  constructor
  · intro dim rows cols data hlo hrows hcols
    rw [StatedMatrix.ofNumbers_eq hlo hrows hcols]
    constructor
    · rintro ⟨A, hA⟩
      cases hlists : SymMatrix.ofLists dim rows cols data with
      | error e => rw [hlists] at hA; cases hA
      | ok B => exact SymMatrix.lowerLists_of_ok hlists
    · intro hedge hlists
      obtain ⟨A, hA⟩ := SymMatrix.ofLists_of_lowerLists hlists hlo hedge
      exact ⟨.plain A, by rw [hA]; rfl⟩
  · intro dim hlo hhi
    obtain ⟨r, c, r', c', hne, hcells, hrefused⟩ := SymMatrix.exists_confused (α := Float) hlo hhi
    have hfirst := hcells (r, c) (by simp)
    have hsecond := hcells (r', c') (by simp)
    have hword : ∀ n : Int, 0 ≤ n → n < dim → fitsWord n = true := by
      intro n hn hlt
      simp only [fitsWord, Nat.pow_eq, decide_eq_true_eq]
      omega
    refine ⟨r, c, r', c', hne, hfirst, hsecond, fun v w => ?_⟩
    simp only at hfirst hsecond
    have hrows : ∀ n ∈ [r, r'], fitsWord n = true := by
      simp only [List.mem_cons, List.not_mem_nil, or_false, forall_eq_or_imp, forall_eq]
      exact ⟨hword r (by omega) (by omega), hword r' (by omega) (by omega)⟩
    have hcols : ∀ n ∈ [c, c'], fitsWord n = true := by
      simp only [List.mem_cons, List.not_mem_nil, or_false, forall_eq_or_imp, forall_eq]
      exact ⟨hword c (by omega) (by omega), hword c' (by omega) (by omega)⟩
    rw [StatedMatrix.ofNumbers_eq (by omega) hrows hcols, hrefused v w]
    rfl

/-- at dimension 2^32 the first and the last cell make a matrix; at the next dimension some two cells are confused -/
theorem duplicate_check_reach_edge :
    (∃ A, StatedMatrix.ofNumbers (2 ^ 32) [0, 2 ^ 32 - 1] [0, 2 ^ 32 - 1] [1.0, 2.0] = .ok A) ∧
      ∃ r c r' c' : Int, (r, c) ≠ (r', c') ∧
        StatedMatrix.ofNumbers (2 ^ 32 + 1) [r, r'] [c, c'] [1.0, 2.0] = .error .duplicateCell := by
  constructor
  · have haccepted := (duplicate_check_reach.1 (2 ^ 32) [0, 2 ^ 32 - 1] [0, 2 ^ 32 - 1] [1.0, 2.0] (by decide)
      (by decide) (by decide)).2
    exact haccepted le_rfl ⟨rfl, rfl, by decide, by decide⟩
  · obtain ⟨r, c, r', c', hne, -, -, hrefused⟩ := duplicate_check_reach.2 (2 ^ 32 + 1) (by decide) (by decide)
    exact ⟨r, c, r', c', hne, hrefused 1.0 2.0⟩

end MomentProgram
