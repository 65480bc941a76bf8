/-
Cells collected from tables of any shape.

Extraction compares the tags with an index, reads the phase behind each marked cell on or below the diagonal and scales it. Whatever the
comparison marks in a table with two axes, the phases have it, as many come out of the scaling as go in, and the marked cells come row by
row, on or below the diagonal and inside the matrix (`ofMask_of_shape`). So up to 2^32 rows the checked constructor never objects
(`extract_of_matching`), and nothing but the comparison can be refused. Encoding collects the cells of a Gram matrix in the same way
(`Gram.extract_eq_lowerTriangular`).

- `extraction`: the matrix of every index for tables of whole numbers, of truth values and of doubles, what two indices share, and for
  tables of any other content the comparison as the only refusal.
- `extraction_tall`: a table with more rows than columns, phases with a row and a column to spare, and a scale that is no number.
- `extraction_rounded`: doubles and truth values for which indices are confused or refused.
-/
import Mathlib
import MomentProgram.Proofs.Symmetric.Keys
import MomentProgram.Proofs.Value.Matching

namespace MomentProgram

/-! ## The collected cells -/

/-- a scale as the number that it multiplies by -/
inductive ScaleOf : Float → Option Value → Prop where
  | absent : ScaleOf 1.0 none
  | real (s : Float) (cell : Option Cell) : ScaleOf s (some (.number (.float s) cell))
  | whole (n : Int) (s : Float) (h : Number.intToFloat n = .ok s) : ScaleOf s (some (.ofInt n))

/-- a matrix holds the marked cells on or below the diagonal of a table, row by row, each once and with its value -/
structure HoldsMarked (p q : ℕ) (marked : ℕ → ℕ → Prop) (value : ℕ → ℕ → Float) (A : SymMatrix Float) : Prop where
  dim_eq : A.dim = p
  increasing : A.triples.Pairwise fun t u => t.row < u.row ∨ t.row = u.row ∧ t.col < u.col
  mem_iff : ∀ t, t ∈ A.triples ↔ t.row < p ∧ t.col < q ∧ t.col ≤ t.row ∧ marked t.row t.col ∧ t.value = value t.row t.col

/-- **A scale multiplies every entry.** -/
theorem ScaleOf.timesEach {s : Float} {scale : Option Value} (h : ScaleOf s scale) (xs : Tensor Float) :
    Value.timesEach scale xs = .ok (xs.toList.map (s * ·)) := by
  cases h with
  | absent => rfl
  | real _ cell => rfl
  | whole n _ h =>
    simp only [Value.timesEach, Value.ofInt, h]
    rfl

section Extraction

variable {p q P Q : ℕ} {F : Tensor Float} {s : Float} {scale : Option Value}

/-- **What is marked is collected,** row by row, each cell with its scaled phase. -/
theorem ofMask_of_shape {mask : Tensor Bool} (hmask : mask.shape = [p, q]) (hF : F.shape = [P, Q]) (hP : p ≤ P) (hQ : q ≤ Q)
    (hscale : ScaleOf s scale) : SymMatrix.ofMask p mask F (Value.timesEach scale) =
      SymMatrix.ofTriples p (lowerTriples (fun (r : Fin p) (c : Fin q) => mask.get false [r.val, c.val])
        fun r c => s * F.get 0.0 [r.val, c.val]) := by
  let pick (r : Fin p) (c : Fin q) : Bool := mask.get false [r.val, c.val]
  let phase (t : Triple (Option (List Float))) : Float := F.get 0.0 [t.row, t.col]
  let blocks := lowerTriples pick fun r c => F.block? r.val c.val
  have hblocks : SymMatrix.markedBlocks mask F = .ok blocks := by
    unfold SymMatrix.markedBlocks
    simp only [hmask]
    rfl
  have hfound : blocks.mapM SymMatrix.foundBlock = .ok (blocks.map fun t => ⟨t.row, t.col, [phase t]⟩) := by
    refine Outcome.mapM_of_ok fun t ht => ?_
    obtain ⟨r, c, -, -, rfl⟩ := mem_lowerTriples.1 ht
    unfold SymMatrix.foundBlock
    simp only [Tensor.block?_of_shape hF (r.isLt.trans_le hP) (c.isLt.trans_le hQ) 0.0]
    rfl
  have hstacked : (SymMatrix.stackedBlocks (blocks.map fun t => (⟨t.row, t.col, [phase t]⟩ : Triple (List Float))) []).toList =
      blocks.map phase := by
    rw [toList_stackedBlocks, List.flatMap_map]
    exact List.flatMap_pure_eq_map phase blocks
  have hscaled : Value.timesEach scale (SymMatrix.stackedBlocks (blocks.map fun t => ⟨t.row, t.col, [phase t]⟩) []) =
      .ok (blocks.map fun t => s * phase t) := by
    rw [hscale.timesEach, hstacked, List.map_map]
    rfl
  have htriples : List.zipWith (fun (t : Triple (List Float)) v => (⟨t.row, t.col, v⟩ : Triple Float))
      (blocks.map fun t => ⟨t.row, t.col, [phase t]⟩) (blocks.map fun t => s * phase t) =
      lowerTriples pick fun r c => s * F.get 0.0 [r.val, c.val] := by
    rw [List.zipWith_map, List.zipWith_self]
    exact map_lowerTriples pick _ _ _ fun r c => rfl
  unfold SymMatrix.ofMask
  rw [hblocks]
  simp only [bind, Except.bind, hF, hfound]
  show (Value.timesEach scale (SymMatrix.stackedBlocks _ [])).bind _ = _
  rw [hscaled]
  simp only [Except.bind, List.length_map, ne_eq, not_true_eq_false, if_false, htriples]
  rfl

/-- **Encoding collects the cells that are extracted.** -/
theorem Gram.extract_eq_lowerTriangular {d : ℕ} (g : Gram d Float) (index : Int) (hscale : ScaleOf s scale) :
    g.extract (.ofInt index) scale = g.lowerTriangular index s := by
  have hmatching : Value.matching g.tagCells (.ofInt index) = .ok ((Tensor.ofGrid g.tags).map fun n => decide (n = index)) :=
    (HoldsTags.sized 64 true).matching index
  have hmask : ((Tensor.ofGrid g.tags).map fun n => decide (n = index)).shape = [d, d] := rfl
  have hpick : ∀ r c : Fin d,
      ((Tensor.ofGrid g.tags).map fun n => decide (n = index)).get false [r.val, c.val] = (g.tags.get r c == index) := by
    intro r c
    rw [Tensor.get_map_of_inside _ (inside_pair r c) 0, Tensor.get_ofGrid]
    rfl
  unfold Gram.extract
  rw [hmatching]
  simp only [bind, Except.bind]
  rw [ofMask_of_shape hmask rfl le_rfl le_rfl hscale]
  simp only [hpick, Tensor.get_ofGrid]
  rfl

/-- **Only the comparison can be refused.** In a table with two axes, of whatever content, the cells that the comparison with an index
marks are collected; without a comparison there is no matrix. -/
theorem extract_of_matching (hp : p ≤ 2 ^ 32) {v phases : Value} {g : Gathered} (hg : v.gather = .ok g) (hshape : g.cells.shape = [p, q])
    (hphases : phases.toTensor = .ok F) (hF : F.shape = [P, Q]) (hP : p ≤ P) (hQ : q ≤ Q) (hscale : ScaleOf s scale) (index : Int) :
    (∀ e, Value.matching g (.ofInt index) = .error e → v.extract phases (.ofInt index) scale = .error e) ∧
      ∀ mask, Value.matching g (.ofInt index) = .ok mask → ∃ A, v.extract phases (.ofInt index) scale = .ok A ∧
        HoldsMarked p q (fun r c => mask.get false [r, c] = true) (fun r c => s * F.get 0.0 [r, c]) A := by
  have hread : v.extract phases (.ofInt index) scale =
      (Value.matching g (.ofInt index)).bind fun mask => SymMatrix.ofMask p mask F (Value.timesEach scale) := by
    unfold Value.extract
    rw [hg, hphases]
    simp only [bind, Except.bind, hshape]
  constructor
  · intro e he
    rw [hread, he]
    rfl
  · intro mask hmask
    have hmaskshape : mask.shape = [p, q] := (shape_of_matching hmask).trans hshape
    obtain ⟨A, hA⟩ := SymMatrix.ofTriples_lowerTriples hp (fun (r : Fin p) (c : Fin q) => mask.get false [r.val, c.val])
      fun r c => s * F.get 0.0 [r.val, c.val]
    obtain ⟨hdim, htriples⟩ := SymMatrix.ofTriples_ok hA
    refine ⟨A, ?_, hdim, ?_, ?_⟩
    · rw [hread, hmask]
      exact (ofMask_of_shape hmaskshape hF hP hQ hscale).trans hA
    · rw [htriples]
      refine (pairwise_lowerTriples _ _).imp fun {t u} hbefore => ?_
      simpa [Triple.before] using hbefore
    · intro t
      rw [htriples, mem_lowerTriples]
      constructor
      · rintro ⟨r, c, hle, hmarked, rfl⟩
        exact ⟨r.isLt, c.isLt, hle, hmarked, rfl⟩
      · obtain ⟨row, col, value⟩ := t
        rintro ⟨hr, hc, hle, hmarked, hvalue⟩
        exact ⟨⟨row, hr⟩, ⟨col, hc⟩, hle, hmarked, congrArg (Triple.mk row col) hvalue⟩

/-- two matrices have no stored cell in common -/
def SymMatrix.Apart (A B : SymMatrix Float) : Prop := ∀ t ∈ A.triples, ∀ u ∈ B.triples, (t.row, t.col) ≠ (u.row, u.col)

/-- **Marks that exclude each other give matrices without a common cell.** -/
theorem apart_of_marked {marked marked' : ℕ → ℕ → Prop} {value value' : ℕ → ℕ → Float} {x x' : Outcome (SymMatrix Float)}
    {A B : SymMatrix Float} (hx : ∃ A, x = .ok A ∧ HoldsMarked p q marked value A)
    (hx' : ∃ B, x' = .ok B ∧ HoldsMarked p q marked' value' B) (h : ∀ r c, marked r c → ¬ marked' r c) (hA : x = .ok A)
    (hB : x' = .ok B) : A.Apart B := by
  obtain ⟨A', hA', hheld⟩ := hx
  obtain ⟨B', hB', hheld'⟩ := hx'
  obtain rfl : A = A' := Except.ok.inj (hA.symm.trans hA')
  obtain rfl : B = B' := Except.ok.inj (hB.symm.trans hB')
  intro t ht u hu hcell
  obtain ⟨-, -, -, hmarked, -⟩ := (hheld.mem_iff t).1 ht
  obtain ⟨-, -, -, hmarked', -⟩ := (hheld'.mem_iff u).1 hu
  obtain ⟨hrow, hcol⟩ := Prod.mk.inj hcell
  rw [← hrow, ← hcol] at hmarked'
  exact h _ _ hmarked hmarked'

section Tables

variable {v phases : Value} (hp : p ≤ 2 ^ 32) (hphases : phases.toTensor = .ok F) (hF : F.shape = [P, Q]) (hP : p ≤ P) (hQ : q ≤ Q)
  (hscale : ScaleOf s scale)

include hp hphases hF hP hQ hscale

/-- **What a comparison of each entry marks is collected.** -/
theorem extract_of_entries {α : Type} {entries : Tensor α} {g : Gathered} (hg : v.gather = .ok g) (hshape : entries.shape = [p, q])
    (hcells : g.cells.shape = entries.shape) {index : Int} {equals : α → Bool}
    (h : Value.matching g (.ofInt index) = .ok (entries.map equals)) (a : α) : ∃ A, v.extract phases (.ofInt index) scale = .ok A ∧
      HoldsMarked p q (fun r c => equals (entries.get a [r, c]) = true) (fun r c => s * F.get 0.0 [r, c]) A := by
  obtain ⟨-, hmarked⟩ := extract_of_matching hp hg (hcells.trans hshape) hphases hF hP hQ hscale index
  obtain ⟨A, hA, hdim, hincreasing, hmem⟩ := hmarked _ h
  refine ⟨A, hA, hdim, hincreasing, fun t => ?_⟩
  rw [hmem]
  refine and_congr_right fun hr => and_congr_right fun hc => ?_
  have hinside : Inside [t.row, t.col] entries.shape := by
    rw [hshape]
    exact .cons hr (.cons hc .nil)
  rw [Tensor.get_map_of_inside _ hinside a]

theorem extract_tags {tags : Tensor Int} (hshape : tags.shape = [p, q]) (hv : TagForm tags v) (index : Int) :
    ∃ A, v.extract phases (.ofInt index) scale = .ok A ∧
      HoldsMarked p q (fun r c => tags.get 0 [r, c] = index) (fun r c => s * F.get 0.0 [r, c]) A := by
  obtain ⟨g, hg, htags⟩ := hv.gather (by rw [hshape]; exact Nat.le_of_ble_eq_true rfl)
  have hcells : g.cells.shape = tags.shape := by cases htags <;> rfl
  have hheld := extract_of_entries hp hphases hF hP hQ hscale hg hshape hcells (htags.matching index) 0
  simpa only [decide_eq_true_iff] using hheld

theorem extract_truths {truths : Tensor Bool} (hshape : truths.shape = [p, q]) (hv : v.gather = .ok (.truths truths)) (index : Int) :
    (fitsWord index = false → v.extract phases (.ofInt index) scale = .error .tooLarge) ∧
      (fitsWord index = true → ∃ A, v.extract phases (.ofInt index) scale = .ok A ∧
        HoldsMarked p q (fun r c => (if truths.get false [r, c] then 1 else 0) = index) (fun r c => s * F.get 0.0 [r, c]) A) := by
  obtain ⟨hrefused, hmatching⟩ := Value.matching_truths truths index
  refine ⟨fun hfits => ?_, fun hfits => ?_⟩
  · exact (extract_of_matching hp hv hshape hphases hF hP hQ hscale index).1 _ (hrefused hfits)
  · have hheld := extract_of_entries hp hphases hF hP hQ hscale hv hshape rfl (hmatching hfits) false
    simpa only [decide_eq_true_iff] using hheld

theorem extract_doubles {doubles : Tensor Float} (hshape : doubles.shape = [p, q]) (hv : v.gather = .ok (.doubles doubles)) (index : Int) :
    (∀ e, Number.intToFloat index = .error e → v.extract phases (.ofInt index) scale = .error e) ∧
      ∀ y, Number.intToFloat index = .ok y → ∃ A, v.extract phases (.ofInt index) scale = .ok A ∧
        HoldsMarked p q (fun r c => (doubles.get 0.0 [r, c] == y) = true) (fun r c => s * F.get 0.0 [r, c]) A := by
  obtain ⟨hrefused, hmatching⟩ := Value.matching_doubles doubles index
  refine ⟨fun e he => ?_, fun y hy => ?_⟩
  · exact (extract_of_matching hp hv hshape hphases hF hP hQ hscale index).1 e (hrefused e he)
  · exact extract_of_entries hp hphases hF hP hQ hscale hv hshape rfl (hmatching y hy) 0.0

end Tables

end Extraction

/-- **Extraction never objects to a table that can be compared.** Take phases with at least as many rows and columns as a table of `p ≤ 2^32`
rows and `q` columns, and a scale. What is extracted is a matrix of `p` rows that holds exactly the cells on or below the diagonal whose tag
is the index, strictly increasing by row and column, each with its scaled phase.

For a table of whole numbers, as a typed array or as a list of rows that is not read as doubles, that is so for every index, and the matrices
of two indices have no cell in common. The same holds for truth values and the indices of 64 bits; beyond, the comparison is refused. In a
table of doubles the tags are compared with the double nearest to the index: there is a matrix for every index in their range, holding
the cells of that double, and two indices with different nearest doubles have no cell in common. A table of any other content gives the
cells that its comparison with the index marks in the same way, and is refused only if the comparison is. -/
theorem extraction {p q P Q : ℕ} (hp : p ≤ 2 ^ 32) {phases : Value} {F : Tensor Float} (hphases : phases.toTensor = .ok F)
    (hF : F.shape = [P, Q]) (hP : p ≤ P) (hQ : q ≤ Q) {s : Float} {scale : Option Value} (hscale : ScaleOf s scale) :
    (∀ (tags : Tensor Int) (v : Value), tags.shape = [p, q] → TagForm tags v →
      (∀ index : Int, ∃ A, v.extract phases (.ofInt index) scale = .ok A ∧
        HoldsMarked p q (fun r c => tags.get 0 [r, c] = index) (fun r c => s * F.get 0.0 [r, c]) A) ∧
      ∀ (i j : Int) (A B : SymMatrix Float), i ≠ j → v.extract phases (.ofInt i) scale = .ok A →
        v.extract phases (.ofInt j) scale = .ok B → A.Apart B) ∧
    (∀ (truths : Tensor Bool) (v : Value), truths.shape = [p, q] → v.gather = .ok (.truths truths) →
      (∀ index : Int, (fitsWord index = false → v.extract phases (.ofInt index) scale = .error .tooLarge) ∧
        (fitsWord index = true → ∃ A, v.extract phases (.ofInt index) scale = .ok A ∧
          HoldsMarked p q (fun r c => (if truths.get false [r, c] then 1 else 0) = index) (fun r c => s * F.get 0.0 [r, c]) A)) ∧
      ∀ (i j : Int) (A B : SymMatrix Float), i ≠ j → v.extract phases (.ofInt i) scale = .ok A →
        v.extract phases (.ofInt j) scale = .ok B → A.Apart B) ∧
    (∀ (doubles : Tensor Float) (v : Value), doubles.shape = [p, q] → v.gather = .ok (.doubles doubles) →
      (∀ index : Int, (∀ e, Number.intToFloat index = .error e → v.extract phases (.ofInt index) scale = .error e) ∧
        ∀ y, Number.intToFloat index = .ok y → ∃ A, v.extract phases (.ofInt index) scale = .ok A ∧
          HoldsMarked p q (fun r c => (doubles.get 0.0 [r, c] == y) = true) (fun r c => s * F.get 0.0 [r, c]) A) ∧
      ∀ (i j : Int) (y z : Float) (A B : SymMatrix Float), Number.intToFloat i = .ok y → Number.intToFloat j = .ok z → (y == z) = false →
        v.extract phases (.ofInt i) scale = .ok A → v.extract phases (.ofInt j) scale = .ok B → A.Apart B) ∧
    ∀ (v : Value) (g : Gathered), v.gather = .ok g → g.cells.shape = [p, q] → ∀ index : Int,
      (∀ e, Value.matching g (.ofInt index) = .error e → v.extract phases (.ofInt index) scale = .error e) ∧
        ∀ mask, Value.matching g (.ofInt index) = .ok mask → ∃ A, v.extract phases (.ofInt index) scale = .ok A ∧
          HoldsMarked p q (fun r c => mask.get false [r, c] = true) (fun r c => s * F.get 0.0 [r, c]) A := by
  refine ⟨fun tags v hshape hv => ?_, fun truths v hshape hv => ?_, fun doubles v hshape hv => ?_,
    fun v g hg hshape index => extract_of_matching hp hg hshape hphases hF hP hQ hscale index⟩
  · have hevery := extract_tags hp hphases hF hP hQ hscale hshape hv
    exact ⟨hevery, fun i j A B hne => apart_of_marked (hevery i) (hevery j) fun r c hi hj => hne (hi.symm.trans hj)⟩
  · have hevery := extract_truths hp hphases hF hP hQ hscale hshape hv
    refine ⟨hevery, fun i j A B hne hA hB => ?_⟩
    -- an index that gives a matrix is one of 64 bits
    have hfits : ∀ {index : Int} {C : SymMatrix Float}, v.extract phases (.ofInt index) scale = .ok C → fitsWord index = true := by
      intro index C hC
      by_contra hfits
      rw [(hevery index).1 (by simpa using hfits)] at hC
      cases hC
    exact apart_of_marked ((hevery i).2 (hfits hA)) ((hevery j).2 (hfits hB)) (fun r c hi hj => hne (hi.symm.trans hj)) hA hB
  · have hevery := extract_doubles hp hphases hF hP hQ hscale hshape hv
    refine ⟨hevery, fun i j y z A B hy hz hne hA hB => apart_of_marked ((hevery i).2 y hy) ((hevery j).2 z hz) (fun r c hi hj => ?_) hA hB⟩
    have hequal := Double.beq_of_beq hi hj
    rw [hne] at hequal
    cases hequal

/-- a table with more rows than columns -/
def tallTags : Tensor Int := ⟨[3, 2], #[4, 7, 7, 4, 7, 7], rfl⟩

/-- the same as a typed array of 8 bits with a sign -/
def tallTable : Value := .array (.int 8 true) tallTags.shape (tallTags.toList.map .int)

/-- phases with a row and a column to spare -/
def widePhases : List Float := [1.0, 2.0, 0.0, 3.0, -0.0, 0.0, 5.0, 6.0, 0.0, 0.0, 0.0, 0.0]

/-- the cells of two tags in a table of three rows and two columns, scaled by NaN -/
theorem extraction_tall :
    ∃ A B, tallTable.extract (.ofDoubles [4, 3] widePhases) (.ofInt 7) (some (.ofFloat (0.0 / 0.0))) = .ok A ∧
      tallTable.extract (.ofDoubles [4, 3] widePhases) (.ofInt 4) (some (.ofFloat (0.0 / 0.0))) = .ok B ∧
      A.dim = 3 ∧ (∀ cell, cell ∈ A.triples.map (fun t => (t.row, t.col)) ↔ cell ∈ [(1, 0), (2, 0), (2, 1)]) ∧
      ∀ t ∈ A.triples, ∀ u ∈ B.triples, (t.row, t.col) ≠ (u.row, u.col) := by
  have haxes : [4, 3].length ≤ Value.axisLimit := by decide
  have hlength : widePhases.length = shapeSize [4, 3] := rfl
  obtain ⟨F, hread, hshape, -⟩ := Value.toTensor_doubles haxes hlength
  obtain ⟨hwhole, -⟩ := extraction (p := 3) (q := 2) (by norm_num) hread hshape (by norm_num) (by norm_num) (.real (0.0 / 0.0) none)
  obtain ⟨hevery, hdisjoint⟩ := hwhole tallTags tallTable rfl (.sized 8 true)
  obtain ⟨A, hA, hheld⟩ := hevery 7
  obtain ⟨B, hB, -⟩ := hevery 4
  refine ⟨A, B, hA, hB, hheld.dim_eq, fun cell => ?_, hdisjoint 7 4 A B (by decide) hA hB⟩
  rw [List.mem_map]
  constructor
  · rintro ⟨t, ht, rfl⟩
    obtain ⟨hr, hc, hle, htag, -⟩ := (hheld.mem_iff t).1 ht
    have hlisted : ∀ (r : Fin 3) (c : Fin 2), c.val ≤ r.val → tallTags.get 0 [r.val, c.val] = 7 →
        (r.val, c.val) ∈ [(1, 0), (2, 0), (2, 1)] := by decide
    exact hlisted ⟨t.row, hr⟩ ⟨t.col, hc⟩ hle htag
  · intro hcell
    have htagged : ∀ x ∈ [(1, 0), (2, 0), (2, 1)], x.1 < 3 ∧ x.2 < 2 ∧ x.2 ≤ x.1 ∧ tallTags.get 0 [x.1, x.2] = 7 := by decide
    obtain ⟨hr, hc, hle, htag⟩ := htagged cell hcell
    exact ⟨⟨cell.1, cell.2, 0.0 / 0.0 * F.get 0.0 [cell.1, cell.2]⟩, (hheld.mem_iff _).2 ⟨hr, hc, hle, htag, rfl⟩, rfl⟩

/-- phases of one for every cell of a square of two rows -/
def unitPhases : Value := .ofDoubles [2, 2] [1.0, 1.0, 1.0, 1.0]

theorem toTensor_unitPhases : ∃ F, unitPhases.toTensor = .ok F ∧ F.shape = [2, 2] := by
  have haxes : [2, 2].length ≤ Value.axisLimit := by decide
  have hlength : [1.0, 1.0, 1.0, 1.0].length = shapeSize [2, 2] := rfl
  obtain ⟨F, hread, hshape, -⟩ := Value.toTensor_doubles haxes hlength
  exact ⟨F, hread, hshape⟩

/-- **The first cell of a table that is read as doubles has every index that its double is nearest to.** -/
theorem mem_extract_doubles {rows : List (List Number)} {p q : ℕ} (hrows : rows.length = p) (hp : 0 < p ∧ p ≤ 2) (hq : 0 < q ∧ q ≤ 2)
    (hlength : ∀ row ∈ rows, row.length = q) (hcontent : Content.ofCells (rows.flatten.map (.number · none)) = .cells (.float .double))
    {n : Number} (hfirst : rows.flatten.head? = some n) {index : Int} {y : Float} (hn : Cell.toWidth .double n = y)
    (hindex : Number.intToFloat index = .ok y) (hnan : y.isNaN = false) :
    ∃ A, (Value.ofRows rows).extract unitPhases (.ofInt index) none = .ok A ∧ (0, 0) ∈ A.triples.map fun t => (t.row, t.col) := by
  have hne : rows ≠ [] := by
    rintro rfl
    cases hfirst
  obtain ⟨F, hread, hF⟩ := toTensor_unitPhases
  obtain ⟨X, hgather, hshape, hlist⟩ := Value.gather_doubleRows hne hlength hcontent
  rw [hrows] at hshape
  have hget : X.get 0.0 [0, 0] = y := by
    have hentry : X.entries.toList[0]? = some y := by
      rw [show X.entries.toList = _ from hlist, List.getElem?_map, ← List.head?_eq_getElem?, hfirst, Option.map_some, hn]
    rw [Array.getElem?_toList] at hentry
    simp [Tensor.get, hshape, offset, Array.getD_eq_getD_getElem?, hentry]
  obtain ⟨A, hA, hheld⟩ := (extract_doubles (hp.2.trans (by norm_num)) hread hF hp.2 hq.2 .absent hshape hgather index).2 y hindex
  refine ⟨A, hA, List.mem_map.2 ⟨⟨0, 0, 1.0 * F.get 0.0 [0, 0]⟩, ?_, rfl⟩⟩
  refine (hheld.mem_iff _).2 ⟨hp.1, hq.1, le_rfl, ?_, rfl⟩
  rw [hget]
  exact Double.beq_self hnan

/-- a table of one double -/
def realTable : Value := .ofRows [[.float 9007199254740992.0]]

/-- a table of one truth value -/
def truthTable : Value := .ofRows [[.bool true]]

/-- a table of whole numbers, the first of which makes all of them doubles -/
def mixedTable : Value := .ofRows [[.int 9223372036854775809, .int (-1)], [.int (-1), .int 0]]

theorem gather_truthTable : truthTable.gather = .ok (.truths ⟨[1, 1], #[true], rfl⟩) := by
  have hwidth : ∀ row ∈ [[Number.bool true]], row.length = 1 := by decide
  obtain ⟨t, hcells, -, hshape, hlist⟩ := Value.cells_ofRows (List.cons_ne_nil _ _) hwidth
  have hmap : t.map (Value.gatheredCell .bool) = (⟨[1, 1], #[true], rfl⟩ : Tensor Bool).map fun b => .number (.bool b) (some .bool) := by
    refine Tensor.eq_of_toList hshape ?_
    rw [Tensor.toList_map, Tensor.toList_map, hlist]
    rfl
  have hread : truthTable.contentOf t.toList = .cells .bool := by
    rw [hlist]
    rfl
  rw [Gathered.truths, ← hmap]
  exact Value.gather_of_cells hcells hread

/-- **Tables for which indices are confused or not accepted.** In a table of the double 2^53, the first cell is extracted for 2^53 and for
2^53 + 1, and nothing for 10^400, which is refused; in a table of one truth value, 2^63 is refused; and in a table of whole numbers that is
read as doubles, because 2^63 + 1 is next to negative ones, the first cell is extracted for 2^63 and for 2^63 + 1. -/
theorem extraction_rounded :
    (∀ index ∈ [(2 : Int) ^ 53, 2 ^ 53 + 1], ∃ A, realTable.extract unitPhases (.ofInt index) none = .ok A ∧
        (0, 0) ∈ A.triples.map fun t => (t.row, t.col)) ∧
      realTable.extract unitPhases (.ofInt (10 ^ 400)) none = .error .tooLarge ∧
      truthTable.extract unitPhases (.ofInt (2 ^ 63)) none = .error .tooLarge ∧
      ∀ index ∈ [(2 : Int) ^ 63, 2 ^ 63 + 1], ∃ A, mixedTable.extract unitPhases (.ofInt index) none = .ok A ∧
        (0, 0) ∈ A.triples.map fun t => (t.row, t.col) := by
  obtain ⟨F, hread, hF⟩ := toTensor_unitPhases
  refine ⟨fun index hindex => ?_, ?_, ?_, fun index hindex => ?_⟩
  · have hnearest : Number.intToFloat index = .ok 9007199254740992.0 := by
      revert index
      decide +kernel
    have hwidth : ∀ row ∈ [[Number.float 9007199254740992.0]], row.length = 1 := by decide
    exact mem_extract_doubles rfl (by decide) (by decide) hwidth rfl rfl (Cell.toWidth_double_float _) hnearest (by decide +kernel)
  · have hwidth : ∀ row ∈ [[Number.float 9007199254740992.0]], row.length = 1 := by decide
    obtain ⟨X, hgather, hshape, -⟩ := Value.gather_doubleRows (List.cons_ne_nil _ _) hwidth rfl
    have hrefused : Number.intToFloat (10 ^ 400) = .error .tooLarge := by decide +kernel
    exact (extract_doubles (by norm_num) hread hF (by norm_num) (by norm_num) .absent hshape hgather (10 ^ 400)).1 _ hrefused
  · exact (extract_truths (by norm_num) hread hF (by norm_num) (by norm_num) .absent rfl gather_truthTable (2 ^ 63)).1 rfl
  · have hnearest : Number.intToFloat index = .ok 9223372036854775808.0 := by
      revert index
      decide +kernel
    have hwidth : ∀ row ∈ [[Number.int 9223372036854775809, .int (-1)], [.int (-1), .int 0]], row.length = 2 := by decide
    have hfirst : Cell.toWidth .double (.int 9223372036854775809) = 9223372036854775808.0 := by decide +kernel
    exact mem_extract_doubles rfl (by decide) (by decide) hwidth rfl rfl hfirst hnearest (by decide +kernel)

end MomentProgram
