/-
Matrices whose dimension is of any kind.

The triples of such a matrix are checked in the arithmetic of its dimension: the greatest row is compared with it, and cells are told apart
by keys that are computed in it. Equal cells have equal keys (`ExtentKey.same_self`), so no cell comes twice, whatever the arithmetic, unless
the dimension is an array of several axes, whose keys are counted as one row (`StatedMatrix.nodup_cells`). A dimension that counts rows is
compared exactly (`Value.leavesOut_of_count`), so up to 2^32 rows the matrix has its full form (`StatedMatrix.exists_full`); one that
counts none never has (`StatedMatrix.full_ok`).
-/
import Mathlib
import MomentProgram.Proofs.Number.Finite
import MomentProgram.Proofs.Outcome
import MomentProgram.Proofs.Symmetric.Cells
import MomentProgram.Proofs.Symmetric.Keys
import MomentProgram.Symmetric.Stated

namespace MomentProgram

/-! ## Keys in the arithmetic of a dimension -/

namespace Value.ExtentKey

theorem same_self (k : ExtentKey) : k.same k = true := by
  cases k with
  | whole k => exact beq_self_eq_true k
  | real x =>
    show (x == x || (x.isNaN && x.isNaN)) = true
    cases h : x.isNaN with
    | true => simp
    | false => rw [Double.beq_self h]; rfl
  | complex a b =>
    show ((a == a && b == b) || ((a.isNaN || b.isNaN) && (a.isNaN || b.isNaN))) = true
    cases ha : a.isNaN with
    | true => simp
    | false => cases hb : b.isNaN with
      | true => simp
      | false => rw [Double.beq_self ha, Double.beq_self hb]; rfl
  | exact e =>
    cases e with
    | quotient num den =>
      show (compare (num * den) (num * den) == .eq) = true
      rw [Int.compare_eq_eq.2 rfl]
      rfl
    | infinite n =>
      show ((if n = n then Ordering.eq else if n then .lt else .gt) == .eq) = true
      rw [if_pos rfl]
      rfl

theorem countDistinct_le (seen ks : List ExtentKey) : countDistinct seen ks ≤ ks.length := by
  induction ks generalizing seen with
  | nil => exact Nat.le_refl 0
  | cons k ks ih =>
    have hrest := ih (k :: seen)
    rw [countDistinct, List.length_cons]
    split <;> omega

/-- keys that are all counted are different from each other -/
theorem pairwise_of_countDistinct {seen ks : List ExtentKey} (h : countDistinct seen ks = ks.length) :
    ks.Pairwise (fun a b => same b a = false) ∧ ∀ k ∈ ks, ∀ s ∈ seen, same k s = false := by
  induction ks generalizing seen with
  | nil => exact ⟨.nil, nofun⟩
  | cons k ks ih =>
    have hrest := countDistinct_le (k :: seen) ks
    rw [countDistinct, List.length_cons] at h
    split at h
    case isTrue => omega
    case isFalse hseen =>
      have hcount : countDistinct (k :: seen) ks = ks.length := by omega
      obtain ⟨hpairwise, hbehind⟩ := ih hcount
      rw [List.any_eq_true] at hseen
      have hnew : ∀ s ∈ seen, same k s = false := fun s hs => by
        by_contra hsame
        exact hseen ⟨s, hs, by simpa using hsame⟩
      refine ⟨.cons (fun b hb => hbehind b hb k List.mem_cons_self) hpairwise, ?_⟩
      rw [List.forall_mem_cons]
      exact ⟨hnew, fun b hb s hs => hbehind b hb s (List.mem_cons_of_mem k hs)⟩

end Value.ExtentKey

/-- **No cell comes twice,** whatever the arithmetic of the dimension, if it has at most one axis. -/
theorem Value.nodup_of_meetsTwice {dim : Value} {ts : List (Triple Float)} (haxes : dim.axisCount < 2) (h : dim.meetsTwice ts = .ok false) :
    (ts.map fun t => (t.row, t.col)).Nodup := by
  unfold meetsTwice at h
  split at h
  case isTrue hnil => rw [hnil]; exact .nil
  case isFalse =>
    obtain ⟨⟨n, c⟩, -, h⟩ := Outcome.bind_ok.1 h
    obtain ⟨keys, hkeys, h⟩ := Outcome.bind_ok.1 h
    have hcount : ExtentKey.countDistinct [] keys = keys.length := by
      have hequal : (ExtentKey.countDistinct [] keys != (if 2 ≤ dim.axisCount then 1 else keys.length)) = false := Except.ok.inj h
      rw [if_neg (by omega)] at hequal
      simpa using hequal
    have hcells := Outcome.nodup_of_pairwise (fun k => by simp [ExtentKey.same_self]) (Outcome.mapM_ok.1 hkeys)
      (ExtentKey.pairwise_of_countDistinct hcount).1
    refine List.Nodup.of_map (Prod.map Nat.cast Nat.cast : ℕ × ℕ → Int × Int) ?_
    rwa [List.map_map]

/-! ## Dimensions that count rows -/

theorem foldl_max_lt_iff {l : List Int} {a n : Int} : l.foldl max a < n ↔ a < n ∧ ∀ m ∈ l, m < n := by
  induction l generalizing a with
  | nil => simp
  | cons m l ih => rw [List.foldl_cons, ih, max_lt_iff, List.forall_mem_cons, and_assoc]

namespace Value

variable {dim : Value} {n : Int}

theorem compare_times_one (m n : Int) : compare (m * (1 : Nat)) (n * (1 : Nat)) = compare m n := by
  rw [Nat.cast_one, mul_one, mul_one]

/-- **A dimension that counts rows is compared exactly.** -/
theorem reaches_of_count (h : dim.count? = some n) (row : Int) : dim.reaches row = .ok (decide (n ≤ row)) := by
  have hcompare : ((compare row n) != .lt) = decide (n ≤ row) := by
    rw [Bool.eq_iff_iff, bne_iff_ne, ne_eq, compare_lt_iff_lt, decide_eq_true_iff]
    omega
  unfold count? at h
  split at h
  · cases h
    show Except.ok (compare (row * (1 : Nat)) (n * (1 : Nat)) != .lt) = _
    rw [compare_times_one, hcompare]
  · cases h
    show Except.ok (compare (row * (1 : Nat)) (_ * (1 : Nat)) != .lt) = _
    rw [compare_times_one, hcompare]
  · cases h
    show Except.ok (compare (row * (1 : Nat)) (n * (1 : Nat)) != .lt) = _
    rw [compare_times_one, hcompare]
  · cases h

theorem leavesOut_of_count {d : ℕ} (h : dim.count? = some (d : Int)) (ts : List (Triple Float)) :
    dim.leavesOut ts = .ok false ↔ ∀ t ∈ ts, t.row < d := by
  unfold leavesOut
  split
  case isTrue hnil => simp [hnil]
  case isFalse hne =>
    obtain ⟨t, ht⟩ := List.exists_mem_of_ne_nil ts hne
    have hgreatest : greatest (ts.map fun t => (t.row : Int)) < d ↔ ∀ t ∈ ts, t.row < d := by
      unfold greatest
      rw [foldl_max_lt_iff, List.forall_mem_map]
      simp only [Nat.cast_lt]
      exact and_iff_right_of_imp fun hrows => by have := hrows t ht; omega
    rw [reaches_of_count h, Except.ok.injEq, decide_eq_false_iff_not, not_le, hgreatest]

theorem axisCount_of_count (h : dim.count? = some n) : dim.axisCount = 0 := by
  unfold count? at h
  split at h
  case h_4 => cases h
  all_goals rfl

/-- a dimension that is not below zero does not count below zero -/
theorem count_nonneg (h : dim.count? = some n) (hdim : dim.belowZero = .ok false) : 0 ≤ n := by
  have hcompare : (some (compare (n * (1 : Nat)) (0 * (1 : Nat))) == some .lt) = false → 0 ≤ n := by
    rw [compare_times_one, beq_eq_false_iff_ne, ne_eq, Option.some.injEq, compare_lt_iff_lt]
    omega
  unfold count? at h
  split at h
  · cases h
    exact hcompare (Except.ok.inj hdim)
  · cases h
    split <;> decide
  · cases h
    exact hcompare (Except.ok.inj hdim)
  · cases h

end Value

/-! ## The full form -/

namespace LooseMatrix

variable {A : LooseMatrix}

theorem ofTriples_ok {dim : Value} {hdim : dim.belowZero = .ok false} {ts : List (Triple Float)} (h : ofTriples dim hdim ts = .ok A) :
    A.dim = dim ∧ A.triples = ts := by
  unfold ofTriples at h
  split at h
  case isFalse => cases h
  split at h
  · cases h
  · obtain ⟨_, -, h⟩ := Outcome.bind_ok.1 h
    cases h
  split at h
  · cases h
  · cases h
  cases h
  exact ⟨rfl, rfl⟩

/-- a matrix keeps its dimension and its triples as they were given -/
theorem ofLists_ok {dim : Value} {hdim : dim.belowZero = .ok false} {rows cols : List Int} {data : List Float}
    (h : ofLists dim hdim rows cols data = .ok A) :
    A.dim = dim ∧ A.triples = (SymMatrix.zipTriples rows cols data).map fun t => ⟨t.1.toNat, t.2.1.toNat, t.2.2⟩ := by
  unfold ofLists at h
  split at h
  · cases h
  dsimp only at h
  split at h
  · cases h
  split at h
  · obtain ⟨_, -, h⟩ := Outcome.bind_ok.1 h
    cases h
  exact ofTriples_ok h

theorem full_ok {B : SymMatrix Float} (h : A.full? = some B) : A.dim.count? = some (B.dim : Int) ∧ B.triples = A.triples := by
  obtain ⟨n, hn, h⟩ := Option.bind_eq_some_iff.1 h
  cases hmade : SymMatrix.ofTriples n.toNat A.triples with
  | error e => rw [hmade] at h; cases h
  | ok C =>
    rw [hmade] at h
    cases h
    obtain ⟨hdim, htriples⟩ := SymMatrix.ofTriples_ok hmade
    rw [hdim, Int.toNat_of_nonneg (Value.count_nonneg hn A.nonneg)]
    exact ⟨hn, htriples⟩

/-- **Up to 2^32 rows, a dimension that counts rows gives a full form.** -/
theorem exists_full {d : ℕ} (hd : d ≤ 2 ^ 32) (h : A.dim.count? = some (d : Int)) : ∃ B, A.full? = some B ∧ B.dim = d := by
  have hrows := (Value.leavesOut_of_count h A.triples).1 A.inside
  have hcells := Value.nodup_of_meetsTwice (by rw [Value.axisCount_of_count h]; norm_num) A.distinct
  have hkeys : (A.triples.map fun t => cellKey d t.row t.col).Nodup := by
    have hmap : (A.triples.map fun t => cellKey d t.row t.col) =
        (A.triples.map fun t => (t.row, t.col)).map fun p => cellKey d p.1 p.2 := by
      rw [List.map_map]
      rfl
    rw [hmap]
    refine hcells.map_on fun p hp q hq hkey => ?_
    obtain ⟨s, hs, rfl⟩ := List.mem_map.1 hp
    obtain ⟨t, ht, rfl⟩ := List.mem_map.1 hq
    have hcols := (A.lower s hs).trans_lt (hrows s hs)
    have hcolt := (A.lower t ht).trans_lt (hrows t ht)
    obtain ⟨hrow, hcol⟩ := cellKey_inj hd (hrows s hs) hcols (hrows t ht) hcolt hkey
    exact Prod.ext hrow hcol
  have hlimit : d < dimLimit := hd.trans_lt (by decide)
  obtain ⟨B, hB⟩ := SymMatrix.ofTriples_of_nodup A.lower hrows (fun _ => hlimit) hkeys
  refine ⟨B, ?_, (SymMatrix.ofTriples_ok hB).1⟩
  rw [full?, h]
  show (SymMatrix.ofTriples d A.triples).toOption = some B
  rw [hB]
  rfl

end LooseMatrix

namespace StatedMatrix

theorem lower (A : StatedMatrix) : ∀ t ∈ A.triples, t.col ≤ t.row := by
  cases A with
  | plain A => exact A.lower
  | loose A => exact A.lower

theorem inside (A : StatedMatrix) : A.dim.leavesOut A.triples = .ok false := by
  cases A with
  | plain A => exact (Value.leavesOut_of_count rfl A.triples).2 A.inside
  | loose A => exact A.inside

theorem nodup_cells (A : StatedMatrix) (haxes : A.dim.axisCount < 2) : (A.triples.map fun t => (t.row, t.col)).Nodup := by
  cases A with
  | plain A => exact SymMatrix.nodup_of_keys A.distinct
  | loose A => exact Value.nodup_of_meetsTwice haxes A.distinct

/-- a full form has the rows that the dimension counts, and the triples as they are -/
theorem full_ok {A : StatedMatrix} {B : SymMatrix Float} (h : A.full = .ok B) :
    A.dim.count? = some (B.dim : Int) ∧ B.triples = A.triples := by
  cases A with
  | plain A =>
    cases h
    exact ⟨rfl, rfl⟩
  | loose A =>
    rw [full] at h
    cases hfull : A.full? with
    | none => rw [hfull] at h; cases h
    | some C =>
      rw [hfull] at h
      cases h
      exact LooseMatrix.full_ok hfull

/-- a dimension that counts no rows gives none -/
theorem full_refused {A : StatedMatrix} (h : A.dim.count? = none) : A.full = .error .notNumeric := by
  cases A with
  | plain A => cases h
  | loose A =>
    rw [full, LooseMatrix.full?, show A.dim.count? = none from h]
    rfl

theorem exists_full {A : StatedMatrix} {d : ℕ} (hd : d ≤ 2 ^ 32) (h : A.dim.count? = some (d : Int)) :
    ∃ B, A.full = .ok B ∧ B.dim = d := by
  cases A with
  | plain A => exact ⟨A, rfl, Nat.cast_injective (Option.some.inj h)⟩
  | loose A =>
    obtain ⟨B, hB, hdim⟩ := LooseMatrix.exists_full hd h
    exact ⟨B, by rw [full, hB], hdim⟩

end StatedMatrix

end MomentProgram
