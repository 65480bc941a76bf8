/-
Tables compared with a whole number.

What a comparison marks depends on what the table is read as. Whole numbers, as a typed array or as a list of rows that is not read as
doubles (`TagForm`), are compared exactly with an index of any size (`HoldsTags.matching`). Doubles are compared with the double that is
nearest to the index, so there is no comparison for an index beyond their range (`Value.matching_doubles`); truth values are compared exactly,
but only with an index of 64 bits (`Value.matching_truths`). Whatever the content, a comparison keeps the shape (`shape_of_matching`).
-/
import Mathlib
import MomentProgram.Proofs.Number.Narrow
import MomentProgram.Proofs.Value.Positive
import MomentProgram.Proofs.Value.Tags

namespace MomentProgram

/-! ## Tables of whole numbers -/

/-- cells that are whole numbers together: of one sort, or each as the object it is -/
inductive HoldsTags (tags : Tensor Int) : Gathered → Prop where
  | sized (bits : ℕ) (isSigned : Bool) :
      HoldsTags tags ⟨.cells (.int bits isSigned), tags.map fun n => .number (.int n) (some (.int bits isSigned))⟩
  | unsized : HoldsTags tags ⟨.objects, tags.map Value.ofInt⟩

/-- the values that a table of whole numbers can be given as: a typed array, or a list of rows that is not read as doubles -/
inductive TagForm (tags : Tensor Int) : Value → Prop where
  | sized (bits : ℕ) (isSigned : Bool) : TagForm tags (.array (.int bits isSigned) tags.shape (tags.toList.map .int))
  | rows (rows : List (List Int)) (q : ℕ) (hshape : tags.shape = [rows.length, q]) (hlist : tags.toList = rows.flatten)
      (hlength : ∀ row ∈ rows, row.length = q) (hexact : ∀ w, Content.ofCells (tags.toList.map .ofInt) ≠ .cells (.float w)) :
      TagForm tags (.list (rows.map fun row => .list (row.map .ofInt)))

namespace Value

/-- what a whole number becomes among cells of a sort -/
def gatheredCell (c : Cell) (leaf : Value) : Value :=
  match leaf with
  | .number n _ => .number (c.convert n) (some c)
  | leaf => leaf

/-- leaves with a sort as their common content are brought to it, one by one -/
theorem gather_of_cells {v : Value} {t : Tensor Value} {c : Cell} (hcells : v.cells = .ok t) (hcontent : v.contentOf t.toList = .cells c) :
    v.gather = .ok ⟨.cells c, t.map (gatheredCell c)⟩ := by
  unfold gather
  rw [hcells]
  simp only [bind, Except.bind, hcontent]
  rfl

/-- **Unsized whole numbers that are not read as doubles are gathered as they are.** -/
theorem gather_ofInts {v : Value} {tags : Tensor Int} (hcells : v.cells = .ok (tags.map ofInt))
    (hplain : v.cellsWith plainEntry = .ok (tags.map ofInt)) (hcontent : v.contentOf (tags.toList.map ofInt) = .ofCells (tags.toList.map ofInt))
    (hexact : ∀ w, Content.ofCells (tags.toList.map ofInt) ≠ .cells (.float w)) : ∃ g, v.gather = .ok g ∧ HoldsTags tags g := by
  have hne : tags.toList ≠ [] := by
    intro hnil
    apply hexact .double
    rw [hnil]
    rfl
  have hlist : (tags.map ofInt).toList = tags.toList.map ofInt := Tensor.toList_map _ _
  rcases Content.ofCells_ints_cases hne with ⟨s, hs⟩ | hs | ⟨w, hw⟩
  · have hmap : (tags.map ofInt).map (gatheredCell (.int 64 s)) = tags.map fun n => .number (.int n) (some (.int 64 s)) := by
      rw [Tensor.map_map]
      rfl
    refine ⟨_, gather_of_cells hcells (by rw [hlist, hcontent, hs]), ?_⟩
    rw [hmap]
    exact .sized 64 s
  · unfold gather
    rw [hcells]
    simp only [bind, Except.bind, hlist, hcontent, hs, hplain]
    exact ⟨_, rfl, .unsized⟩
  · exact absurd hw (hexact w)

/-- **A typed array of whole numbers is gathered as it is.** -/
theorem gather_sized (tags : Tensor Int) (haxes : tags.shape.length ≤ axisLimit) (bits : ℕ) (isSigned : Bool) :
    ∃ g, (Value.array (.int bits isSigned) tags.shape (tags.toList.map .int)).gather = .ok g ∧ HoldsTags tags g := by
  let sort : Cell := .int bits isSigned
  have hlength : (tags.toList.map Number.int).length = shapeSize tags.shape := by
    rw [List.length_map, Tensor.toList, Array.length_toList, tags.size_eq]
  obtain ⟨t, ht, hshape, hlist⟩ := cells_array sort haxes hlength
  have hmap : t.map (gatheredCell sort) = tags.map fun n => .number (.int n) (some sort) := by
    refine Tensor.eq_of_toList hshape ?_
    rw [Tensor.toList_map, Tensor.toList_map, hlist, List.map_map, List.map_map]
    rfl
  refine ⟨_, gather_of_cells ht rfl, ?_⟩
  rw [hmap]
  exact .sized bits isSigned

/-- a list of rows of unsized numbers -/
def ofRows (rows : List (List Number)) : Value := .list (rows.map fun row => .list (row.map (.number · none)))

theorem cells_ofRows {rows : List (List Number)} {q : ℕ} (hne : rows ≠ []) (hlength : ∀ row ∈ rows, row.length = q) :
    ∃ t, (ofRows rows).cells = .ok t ∧ (ofRows rows).cellsWith plainEntry = .ok t ∧ t.shape = [rows.length, q] ∧
      t.toList = rows.flatten.map (.number · none) := by
  let cellRows : List (List Value) := rows.map (List.map (.number · none))
  have hv : ofRows rows = .list (cellRows.map .list) := by
    rw [ofRows, List.map_map]
    rfl
  have hcell : ∀ row ∈ cellRows, ∀ v ∈ row, IsCell v := by
    intro row hrow v hv
    obtain ⟨numbers, -, rfl⟩ := List.mem_map.1 hrow
    obtain ⟨n, -, rfl⟩ := List.mem_map.1 hv
    exact isCell_number _ _
  have hwidth : ∀ row ∈ cellRows, row.length = q := by
    intro row hrow
    obtain ⟨numbers, hnumbers, rfl⟩ := List.mem_map.1 hrow
    rw [List.length_map, hlength numbers hnumbers]
  obtain ⟨t, ht, hshape, hlist⟩ := cells_rows (mt List.map_eq_nil_iff.1 hne) hcell hwidth
  rw [hv]
  refine ⟨t, ht, ?_, ?_, ?_⟩
  · rw [← ht]
    apply cellsWith_congr
    rw [leaves, leaves, leavesOf_rows _ hcell, leavesOf_rows _ hcell]
  · rw [hshape, List.length_map]
  · rw [hlist, List.map_flatten]

/-- **So is a list of rows that is not read as doubles.** -/
theorem gather_intRows {tags : Tensor Int} {rows : List (List Int)} {q : ℕ} (hshape : tags.shape = [rows.length, q])
    (hlist : tags.toList = rows.flatten) (hlength : ∀ row ∈ rows, row.length = q)
    (hexact : ∀ w, Content.ofCells (tags.toList.map ofInt) ≠ .cells (.float w)) :
    ∃ g, (Value.list (rows.map fun row => .list (row.map ofInt))).gather = .ok g ∧ HoldsTags tags g := by
  let numberRows : List (List Number) := rows.map (List.map .int)
  have hv : (Value.list (rows.map fun row => .list (row.map ofInt))) = ofRows numberRows := by
    rw [ofRows, List.map_map]
    congr 2
    funext row
    rw [Function.comp_apply, List.map_map]
    rfl
  have hne : numberRows ≠ [] := by
    intro hnil
    apply hexact .double
    rw [hlist, List.map_eq_nil_iff.1 hnil]
    rfl
  have hwidth : ∀ row ∈ numberRows, row.length = q := by
    intro row hrow
    obtain ⟨numbers, hnumbers, rfl⟩ := List.mem_map.1 hrow
    rw [List.length_map, hlength numbers hnumbers]
  obtain ⟨t, hcells, hplain, htshape, htlist⟩ := cells_ofRows hne hwidth
  obtain rfl : t = tags.map ofInt := by
    apply Tensor.eq_of_toList
    · rw [htshape, List.length_map]
      exact hshape.symm
    · rw [htlist, Tensor.toList_map, hlist, ← List.map_flatten, List.map_map]
      rfl
  rw [hv]
  exact gather_ofInts hcells hplain rfl hexact

/-- an array of no axes with one entry -/
def single (n : Int) : Tensor Int := ⟨[], #[n], rfl⟩

/-- and a single whole number, which is never read as a double -/
theorem gather_ofInt (n : Int) : ∃ g, (ofInt n).gather = .ok g ∧ HoldsTags (single n) g := by
  have hcell : IsCell (ofInt n) := isCell_number _ _
  have hcells : (ofInt n).cells = .ok ((single n).map ofInt) := by
    obtain ⟨t, ht, hshape, hlist⟩ := cells_of_shape (Nat.zero_le _) hcell.shape (hcell.leaves _) rfl
    have hone : t = (single n).map ofInt := by
      apply Tensor.eq_of_toList hshape
      rw [hlist, Tensor.toList_map]
      rfl
    rw [ht, hone]
  have hplain : (ofInt n).cellsWith plainEntry = .ok ((single n).map ofInt) := by
    rw [← hcells]
    apply cellsWith_congr
    rw [hcell.leaves, hcell.leaves]
  refine gather_ofInts hcells hplain rfl fun w hw => ?_
  rcases Content.ofInt_cases n with ⟨s, hn⟩ | hn
  · exact absurd (hn.symm.trans hw) nofun
  · exact absurd (hn.symm.trans hw) nofun

end Value

/-- **A table of whole numbers is gathered as whole numbers.** -/
theorem TagForm.gather {tags : Tensor Int} {v : Value} (h : TagForm tags v) (haxes : tags.shape.length ≤ Value.axisLimit) :
    ∃ g, v.gather = .ok g ∧ HoldsTags tags g := by
  cases h with
  | sized bits isSigned => exact Value.gather_sized tags haxes bits isSigned
  | rows rows q hshape hlist hlength hexact => exact Value.gather_intRows hshape hlist hlength hexact

/-! ## The comparison -/

/-- whole numbers are equal as cells, sized or not, exactly if they are equal -/
theorem Value.equalItems_ints (m n : Int) (bits : ℕ) (isSigned : Bool) :
    (Value.number (.int m) (some (.int bits isSigned))).equalItems (.ofInt n) = .ok (decide (m = n)) ∧
      (Value.ofInt m).equalItems (.ofInt n) = .ok (decide (m = n)) := by
  have hsame : (Number.int m).same (.int n) = decide (m = n) := by
    have hparts : (Number.int m).same (.int n) = (compare (m * 1) (n * 1) == .eq && true) := rfl
    rw [hparts, Bool.eq_iff_iff]
    simp
  constructor
  · show Except.ok ((Number.int m).same (.int n)) = _
    rw [hsame]
  · show Except.ok ((Number.int m).same (.int n)) = _
    rw [hsame]

/-- an index meets the cells of a table of objects as the unsized number that it is -/
theorem HoldsTags.asObject_single {n : Int} {g : Gathered} (h : HoldsTags (Value.single n) g) :
    (g.cells.get .null []).asObject g.content = .ofInt n := by
  cases h with
  | sized bits isSigned => simp [Tensor.get, Tensor.map, Value.single, offset, Value.asObject, Value.ofInt]
  | unsized => simp [Tensor.get, Tensor.map, Value.single, offset, Value.asObject, Value.ofInt]

/-- **A table of whole numbers is compared exactly** with a whole number of any size. -/
theorem HoldsTags.matching {tags : Tensor Int} {g : Gathered} (h : HoldsTags tags g) (index : Int) :
    Value.matching g (.ofInt index) = .ok (tags.map fun n => decide (n = index)) := by
  cases h with
  | sized bits isSigned => exact Tensor.mapE_map tags fun n => (Value.equalItems_ints n index bits isSigned).1
  | unsized =>
    obtain ⟨i, hi, hindex⟩ := Value.gather_ofInt index
    have hshape : i.cells.shape = [] := by cases hindex <;> rfl
    show (Value.ofInt index).gather.bind _ = _
    rw [hi]
    show Value.compareCells _ i = _
    unfold Value.compareCells
    rw [Tensor.zipFitted?_single _ _ _ hshape, Tensor.map_map]
    refine Tensor.mapE_map tags fun n => ?_
    show (Value.ofInt n).equalItems ((i.cells.get .null []).asObject i.content) = _
    rw [hindex.asObject_single]
    exact (Value.equalItems_ints n index 64 true).2

/-! ## Tables of doubles and of truth values -/

/-- a table that is read as doubles -/
def Gathered.doubles (X : Tensor Float) : Gathered := ⟨.cells (.float .double), X.map fun x => .number (.float x) (some (.float .double))⟩

/-- a table that is read as truth values -/
def Gathered.truths (T : Tensor Bool) : Gathered := ⟨.cells .bool, T.map fun b => .number (.bool b) (some .bool)⟩

theorem nearestDouble?_of_ok {n : Int} {y : Float} (h : Number.intToFloat n = .ok y) : nearestDouble? n 1 = some y := by
  simp only [Number.intToFloat, ratioToFloat_eq] at h
  generalize nearestDouble? n 1 = r at h ⊢
  cases r with
  | none => cases h
  | some x => cases h; rfl

theorem Cell.toWidth_double_float (x : Float) : toWidth .double (.float x) = x := by
  unfold toWidth
  exact Format.narrow_double x

theorem Cell.toWidth_double_int {n : Int} {y : Float} (h : Number.intToFloat n = .ok y) : toWidth .double (.int n) = y := by
  unfold toWidth
  simp only [nearestDouble?_of_ok h]
  exact Format.narrow_double y

/-- a double is compared with the double nearest to a whole number, if there is one -/
theorem Number.equalSized_double (x : Float) (n : Int) :
    equalSized (.float .double) (.float x) (.int n) = (intToFloat n).map fun y => x == y := by
  unfold equalSized
  simp only [Cell.meeting, Cell.accepts, reduceCtorEq, if_false]
  cases h : intToFloat n with
  | error e => rfl
  | ok y =>
    unfold Cell.sameIn
    simp only [Cell.convert, Cell.toWidth_double_int h, Cell.toWidth_double_float]
    rfl

/-- a truth value is compared with a whole number of 64 bits as one or zero -/
theorem Number.equalSized_truth (b : Bool) (n : Int) :
    equalSized .bool (.bool b) (.int n) = (word n).map fun _ => decide ((if b then 1 else 0) = n) := by
  have hsame : (Number.bool b).same (.int n) = decide ((if b then 1 else 0) = n) := by
    have hparts : (Number.bool b).same (.int n) = (compare ((if b then 1 else 0) * 1) (n * 1) == .eq && true) := by
      cases b <;> rfl
    rw [hparts, Bool.eq_iff_iff]
    simp
  show (word n).map (fun _ => (Number.bool b).same (.int n)) = _
  rw [hsame]

namespace Value

/-- what a number becomes among doubles -/
def cellDouble : Value → Float
  | .number n _ => Cell.toWidth .double n
  | _ => 0.0

/-- **Rows that have doubles as their common content are read as doubles,** each number as the double that it becomes. -/
theorem gather_doubleRows {rows : List (List Number)} {q : ℕ} (hne : rows ≠ []) (hlength : ∀ row ∈ rows, row.length = q)
    (hcontent : Content.ofCells (rows.flatten.map (.number · none)) = .cells (.float .double)) :
    ∃ X, (ofRows rows).gather = .ok (.doubles X) ∧ X.shape = [rows.length, q] ∧ X.toList = rows.flatten.map (Cell.toWidth .double) := by
  obtain ⟨t, hcells, -, hshape, hlist⟩ := cells_ofRows hne hlength
  have hmap : t.map (gatheredCell (.float .double)) = (t.map cellDouble).map fun x => .number (.float x) (some (.float .double)) := by
    refine Tensor.eq_of_toList rfl ?_
    rw [Tensor.toList_map, Tensor.toList_map, Tensor.toList_map, hlist, List.map_map, List.map_map, List.map_map]
    rfl
  have hread : (ofRows rows).contentOf t.toList = .cells (.float .double) := by
    rw [hlist]
    exact hcontent
  refine ⟨t.map cellDouble, ?_, hshape, ?_⟩
  · rw [Gathered.doubles, ← hmap]
    exact gather_of_cells hcells hread
  · rw [Tensor.toList_map, hlist, List.map_map]
    rfl

/-- **Doubles are compared with the double nearest to the index;** there is no comparison if there is none. -/
theorem matching_doubles (X : Tensor Float) (index : Int) :
    (∀ e, Number.intToFloat index = .error e → matching (.doubles X) (.ofInt index) = .error e) ∧
      ∀ y, Number.intToFloat index = .ok y → matching (.doubles X) (.ofInt index) = .ok (X.map (· == y)) := by
  have hread : matching (.doubles X) (.ofInt index) =
      (Number.equalSized (.float .double) (.float (Cell.toWidth .double (.bool false))) (.int index)).bind fun _ =>
        (X.map fun x => Value.number (.float x) (some (.float .double))).mapE fun v => v.equalItems (.ofInt index) := rfl
  rw [hread, Number.equalSized_double]
  constructor
  · intro e he
    rw [he]
    rfl
  · intro y hy
    rw [hy]
    refine Tensor.mapE_map X fun x => ?_
    have hequal : (Value.number (.float x) (some (.float .double))).equalItems (.ofInt index) =
        Number.equalSized (.float .double) (.float x) (.int index) := rfl
    rw [hequal, Number.equalSized_double, hy]
    rfl

/-- **Truth values are compared exactly,** but only with an index of 64 bits. -/
theorem matching_truths (T : Tensor Bool) (index : Int) :
    (fitsWord index = false → matching (.truths T) (.ofInt index) = .error .tooLarge) ∧
      (fitsWord index = true → matching (.truths T) (.ofInt index) = .ok (T.map fun b => decide ((if b then 1 else 0) = index))) := by
  have hread : matching (.truths T) (.ofInt index) = (Number.equalSized .bool (.bool false) (.int index)).bind
      fun _ => (T.map fun b => Value.number (.bool b) (some .bool)).mapE fun v => v.equalItems (.ofInt index) := rfl
  rw [hread, Number.equalSized_truth, word]
  constructor
  · intro hfits
    rw [hfits]
    rfl
  · intro hfits
    rw [hfits]
    refine Tensor.mapE_map T fun b => ?_
    have hequal : (Value.number (.bool b) (some .bool)).equalItems (.ofInt index) = Number.equalSized .bool (.bool b) (.int index) := rfl
    rw [hequal, Number.equalSized_truth, word, hfits]
    rfl

end Value

/-! ## Tables of any content -/

/-- a comparison with a whole number keeps the shape of the table, whatever it holds -/
theorem shape_of_matching {g : Gathered} {index : Int} {mask : Tensor Bool} (h : Value.matching g (.ofInt index) = .ok mask) :
    mask.shape = g.cells.shape := by
  have hcompare : ∀ i, Value.compareCells g i = .ok mask → i.cells.shape = [] → mask.shape = g.cells.shape := by
    intro i hi hshape
    unfold Value.compareCells at hi
    rw [Tensor.zipFitted?_single _ _ _ hshape] at hi
    have hkept := Tensor.shape_mapE hi
    exact hkept
  have hgathered : (Value.ofInt index).gather.bind (Value.compareCells g) = .ok mask → mask.shape = g.cells.shape := by
    intro hbind
    obtain ⟨i, hi, hindex⟩ := Value.gather_ofInt index
    rw [hi] at hbind
    exact hcompare i hbind (by cases hindex <;> rfl)
  unfold Value.matching at h
  split at h
  · rename_i c n hcontent hvalue
    split_ifs at h with hweak
    · obtain ⟨-, -, h⟩ := Outcome.bind_ok.1 h
      exact Tensor.shape_mapE h
    · exact hgathered h
  · exact hgathered h

end MomentProgram
