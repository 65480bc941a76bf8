/-
Tags given as whole numbers of any size.

A square of whole numbers can be given as a typed array or as a list of lists of unsized numbers (`IntegerForm`). A typed array is read by
the low 64 bits. A list is read so only if its numbers have a common sort of 64 bits: all of them fit with a sign, or none does and all fit
without; numbers of both kinds, and numbers beyond, are no whole numbers together (`areTags_ofCells_ints`). Numbers from 2^63 on wrap to
below zero when they are read, and only 2^64 - 1 wraps to a tag, that of a zero cell. All checks come after that.

- `tags_accepted`: what is accepted and what is stored, for every square of whole numbers in every form.
- `tags_accepted_sized`: the same tags accepted as a list and as a typed array.
- `tags_wrapped`: 2^64 - 1 alone, which is not valid, accepted for a zero cell.
-/
import Mathlib
import MomentProgram.Proofs.Gram.Tags
import MomentProgram.Proofs.Value.Gram

namespace MomentProgram

/-! ## Numbers of 64 bits -/

/-- the whole numbers that 64 bits hold, with or without a sign -/
def HasWord (n : Int) : Prop := -2 ^ 63 ≤ n ∧ n < 2 ^ 64

theorem wrapWord_of_lt {n : Int} (h : HasWord n) (hlt : n < 2 ^ 63) : wrapWord n = n := by
  obtain ⟨hlo, -⟩ := h
  simp only [wrapWord, wrapTo, if_true, Nat.pow_eq]
  omega

theorem wrapWord_of_ge {n : Int} (h : HasWord n) (hge : 2 ^ 63 ≤ n) : wrapWord n = n - 2 ^ 64 := by
  obtain ⟨-, hhi⟩ := h
  simp only [wrapWord, wrapTo, if_true, Nat.pow_eq]
  omega

/-- numbers of a sort of at most 64 bits are numbers of 64 bits -/
theorem hasWord_of_sized {bits : ℕ} {isSigned : Bool} {n : Int} (hbits : bits ≤ 64) (h : wrapTo bits isSigned n = n) : HasWord n := by
  have hpos : (0 : Int) < Nat.pow 2 bits := by exact_mod_cast Nat.pow_pos (n := bits) two_pos
  have hle : (Nat.pow 2 bits : Int) ≤ 2 ^ 64 := by exact_mod_cast Nat.pow_le_pow_right two_pos hbits
  cases isSigned with
  | false =>
    have hmod : n % Nat.pow 2 bits = n := h
    have hlo := Int.emod_nonneg n hpos.ne'
    have hhi := Int.emod_lt_of_pos n hpos
    exact ⟨by omega, by omega⟩
  | true =>
    have hhalf : (Nat.pow 2 (bits - 1) : Int) ≤ 2 ^ 63 := by exact_mod_cast Nat.pow_le_pow_right two_pos (by omega : bits - 1 ≤ 63)
    have hhalf' : (0 : Int) < Nat.pow 2 (bits - 1) := by exact_mod_cast Nat.pow_pos (n := bits - 1) two_pos
    have hmod : (n + Nat.pow 2 (bits - 1)) % Nat.pow 2 bits - Nat.pow 2 (bits - 1) = n := h
    have hlo := Int.emod_nonneg (n + Nat.pow 2 (bits - 1)) hpos.ne'
    have hhi := Int.emod_lt_of_pos (n + Nat.pow 2 (bits - 1)) hpos
    exact ⟨by omega, by omega⟩

/-! ## The content of whole numbers -/

namespace Content

/-- the content that whole numbers make together with what is before them -/
def joined (c : Content) (ns : List Int) : Content := ns.foldl (fun c n => c.join (ofInt n)) c

/-- content that is no whole numbers, and stays so whatever whole numbers come to it -/
def NotWhole (c : Content) : Prop := c = .objects ∨ ∃ w, c = .cells (.float w)

theorem ofInt_cases (n : Int) : (∃ s, ofInt n = .cells (.int 64 s)) ∨ ofInt n = .objects := by
  unfold ofInt
  split_ifs
  · exact .inl ⟨true, rfl⟩
  · exact .inl ⟨false, rfl⟩
  · exact .inr rfl

theorem NotWhole.join_ofInt {c : Content} (h : c.NotWhole) (n : Int) : (c.join (ofInt n)).NotWhole := by
  rcases h with rfl | ⟨w, rfl⟩
  · exact .inl rfl
  · rcases ofInt_cases n with ⟨s, hn⟩ | hn
    · rw [hn]
      exact .inr ⟨_, rfl⟩
    · rw [hn]
      exact .inl rfl

/-- **What is no whole numbers stays so.** -/
theorem NotWhole.joined {c : Content} (h : c.NotWhole) (ns : List Int) : (c.joined ns).NotWhole := by
  induction ns generalizing c with
  | nil => exact h
  | cons n ns ih => exact ih (h.join_ofInt n)

theorem NotWhole.not_areTags {c : Content} (h : c.NotWhole) : ¬ Value.areTags c = true := by
  rcases h with rfl | ⟨w, rfl⟩
  · exact Bool.false_ne_true
  · exact Bool.false_ne_true

/-- a number of the sort that is there changes nothing, every other number spoils it -/
theorem join_ofInt (s : Bool) (n : Int) :
    ofInt n = .cells (.int 64 s) ∧ (cells (.int 64 s)).join (ofInt n) = .cells (.int 64 s) ∨
      ofInt n ≠ .cells (.int 64 s) ∧ ((cells (.int 64 s)).join (ofInt n)).NotWhole := by
  rcases ofInt_cases n with ⟨t, hn⟩ | hn
  · rw [hn]
    cases s <;> cases t
    · exact .inl ⟨rfl, rfl⟩
    · exact .inr ⟨nofun, .inr ⟨.double, rfl⟩⟩
    · exact .inr ⟨nofun, .inr ⟨.double, rfl⟩⟩
    · exact .inl ⟨rfl, rfl⟩
  · rw [hn]
    exact .inr ⟨nofun, .inl rfl⟩

theorem areTags_joined (s : Bool) (ns : List Int) :
    Value.areTags ((cells (.int 64 s)).joined ns) = true ↔ ∀ n ∈ ns, ofInt n = .cells (.int 64 s) := by
  induction ns with
  | nil => simp [joined, Value.areTags, Cell.isWhole]
  | cons n ns ih =>
    have hcons : (cells (.int 64 s)).joined (n :: ns) = ((cells (.int 64 s)).join (ofInt n)).joined ns := rfl
    rw [hcons, List.forall_mem_cons]
    rcases join_ofInt s n with ⟨hn, hsame⟩ | ⟨hn, hspoilt⟩
    · rw [hsame, ih]
      exact (and_iff_right hn).symm
    · exact iff_of_false (hspoilt.joined ns).not_areTags fun h => hn h.1

/-- whole numbers keep the sort of 64 bits that is before them, or spoil it -/
theorem joined_cases (s : Bool) (ns : List Int) :
    (cells (.int 64 s)).joined ns = .cells (.int 64 s) ∨ ((cells (.int 64 s)).joined ns).NotWhole := by
  induction ns with
  | nil => exact .inl rfl
  | cons n ns ih =>
    have hcons : (cells (.int 64 s)).joined (n :: ns) = ((cells (.int 64 s)).join (ofInt n)).joined ns := rfl
    rw [hcons]
    rcases join_ofInt s n with ⟨-, hsame⟩ | ⟨-, hspoilt⟩
    · rw [hsame]
      exact ih
    · exact .inr (hspoilt.joined ns)

/-- **Unsized whole numbers have a common sort of 64 bits, or are read as objects or as doubles.** -/
theorem ofCells_ints_cases {ns : List Int} (h : ns ≠ []) :
    (∃ s, ofCells (ns.map Value.ofInt) = .cells (.int 64 s)) ∨ (ofCells (ns.map Value.ofInt)).NotWhole := by
  obtain ⟨n, ns, rfl⟩ := List.exists_cons_of_ne_nil h
  have hcells : ofCells ((n :: ns).map Value.ofInt) = (ofInt n).joined ns := by
    rw [List.map_cons, ofCells, List.foldl_map]
    rfl
  rw [hcells]
  rcases ofInt_cases n with ⟨s, hn⟩ | hn
  · rw [hn]
    exact (joined_cases s ns).imp_left fun hsame => ⟨s, hsame⟩
  · rw [hn]
    exact .inr (NotWhole.joined (.inl rfl) ns)

/-- **Unsized whole numbers are tags exactly if they have a common sort of 64 bits.** -/
theorem areTags_ofCells_ints {ns : List Int} (h : ns ≠ []) :
    Value.areTags (ofCells (ns.map Value.ofInt)) = true ↔ ∃ s, ∀ n ∈ ns, ofInt n = .cells (.int 64 s) := by
  obtain ⟨n, ns, rfl⟩ := List.exists_cons_of_ne_nil h
  have hcells : ofCells ((n :: ns).map Value.ofInt) = (ofInt n).joined ns := by
    rw [List.map_cons, ofCells, List.foldl_map]
    rfl
  rw [hcells]
  rcases ofInt_cases n with ⟨s, hn⟩ | hn
  · rw [hn, areTags_joined]
    constructor
    · exact fun hs => ⟨s, List.forall_mem_cons.2 ⟨hn, hs⟩⟩
    · rintro ⟨t, ht⟩
      obtain ⟨hn', hs⟩ := List.forall_mem_cons.1 ht
      rwa [← hn, hn']
  · rw [hn]
    refine iff_of_false (NotWhole.joined (.inl rfl) ns).not_areTags ?_
    rintro ⟨t, ht⟩
    rw [ht n List.mem_cons_self] at hn
    cases hn

theorem hasWord_of_ofInt {n : Int} {s : Bool} (h : ofInt n = .cells (.int 64 s)) : HasWord n := by
  unfold ofInt at h
  split_ifs at h with hfits hunsigned
  · simp only [fitsWord, Nat.pow_eq, decide_eq_true_eq] at hfits
    exact ⟨by omega, by omega⟩
  · simp only [Nat.pow_eq] at hunsigned
    exact ⟨by omega, by omega⟩

theorem ofInt_of_lt {n : Int} (h : HasWord n) (hlt : n < 2 ^ 63) : ofInt n = .cells (.int 64 true) := by
  have hfits : fitsWord n = true := by
    simp only [fitsWord, Nat.pow_eq, decide_eq_true_eq]
    exact ⟨h.1, hlt⟩
  exact if_pos hfits

end Content

/-! ## Forms of a square of whole numbers -/

namespace Value

variable {d : ℕ}

/-- a square of whole numbers as a list of its rows, without a sort -/
def ofIntRows (tags : Grid d Int) : Value := .list (List.ofFn fun r => .list (List.ofFn fun c => .ofInt (tags.get r c)))

/-- **A list of rows is read as tags by the low 64 bits, if it is read at all.** -/
theorem toTags_rows (hd : 0 < d) (tags : Grid d Int) :
    (ofIntRows tags).toTags =
      if areTags (.ofCells (tags.toList.map ofInt)) = true then .ok ⟨d, tags.map wrapWord⟩ else .error .tagsNotIntegers := by
  let rows : List (List Value) := List.ofFn fun r => List.ofFn fun c => ofInt (tags.get r c)
  have hrows : ofIntRows tags = .list (rows.map .list) := by
    rw [List.map_ofFn]
    rfl
  have hcell : ∀ row ∈ rows, ∀ v ∈ row, IsCell v := by
    intro row hrow v hv
    obtain ⟨r, rfl⟩ := (List.mem_ofFn' _ _).1 hrow
    obtain ⟨c, rfl⟩ := (List.mem_ofFn' _ _).1 hv
    exact isCell_number _ _
  have hlength : ∀ row ∈ rows, row.length = d := by
    intro row hrow
    obtain ⟨r, rfl⟩ := (List.mem_ofFn' _ _).1 hrow
    exact List.length_ofFn
  have hne : rows ≠ [] := fun h => hd.ne' (List.ofFn_eq_nil_iff.1 h)
  have hcells : (ofIntRows tags).cells = .ok (.ofGrid (tags.map ofInt)) := by
    obtain ⟨t, ht, hshape, hlist⟩ := cells_rows hne hcell hlength
    refine cells_eq_grid ⟨t, hrows ▸ ht, ?_, ?_⟩
    · rw [hshape, List.length_ofFn]
    · rw [hlist, Grid.toList_eq_flatten]
      simp only [Grid.get_map]
      rfl
  have hcontent : (ofIntRows tags).contentOf (tags.map ofInt).toList = .ofCells (tags.toList.map ofInt) := by
    rw [Grid.toList_map]
    rfl
  have htags : (tags.map ofInt).map tagOf = tags.map wrapWord := map_tagOf_int tags none
  rw [toTags_of_cells hcells, hcontent, htags]
  simp only [hd.ne', false_or]

/-- a list without rows has one axis only, so it is no square -/
theorem toTags_rows_none (tags : Grid 0 Int) : (ofIntRows tags).toTags = .error (.tagsNotSquare [0]) := by
  have hnone : ∀ v ∈ ([] : List Value), IsCell v := fun v hv => absurd hv List.not_mem_nil
  obtain ⟨t, ht, hshape, -⟩ := cells_list hnone
  have hsquare : t.toGrid? = none := by
    unfold Tensor.toGrid?
    split
    · next hpair => exact absurd (hshape.symm.trans hpair) (by simp)
    · rfl
  rw [ofIntRows, List.ofFn_zero, toTags, ht]
  simp only [Except.bind, hsquare, hshape]
  rfl

end Value

/-- the values that a square of whole numbers can be given as -/
inductive IntegerForm {d : ℕ} (tags : Grid d Int) : Value → Prop where
  /-- a list of rows, of which there is one at least: without rows it is no square (`Value.toTags_rows_none`) -/
  | rows (hd : 0 < d) : IntegerForm tags (.ofIntRows tags)
  | sized (bits : ℕ) (isSigned : Bool) (hbits : bits ≤ 64) (hsort : ∀ r c, wrapTo bits isSigned (tags.get r c) = tags.get r c) :
      IntegerForm tags (.ofSized bits isSigned tags)

namespace IntegerForm

variable {d : ℕ} {tags : Grid d Int} {v : Value}

/-- **Whatever the form, what is read are the low 64 bits,** and the numbers have no more; the one other outcome is a refusal. -/
theorem toTags_cases (hv : IntegerForm tags v) :
    v.toTags = .ok ⟨d, tags.map wrapWord⟩ ∧ (∀ r c, HasWord (tags.get r c)) ∨ v.toTags = .error .tagsNotIntegers := by
  cases hv with
  | rows hd =>
    rw [Value.toTags_rows hd]
    split_ifs with htags
    · obtain ⟨s, hs⟩ := (Content.areTags_ofCells_ints (Grid.toList_ne_nil hd)).1 htags
      exact .inl ⟨rfl, fun r c => Content.hasWord_of_ofInt (hs _ (Grid.mem_toList.2 ⟨r, c, rfl⟩))⟩
    · exact .inr rfl
  | sized bits isSigned hbits hsort =>
    exact .inl ⟨Value.toTags_sized bits isSigned tags, fun r c => hasWord_of_sized hbits (hsort r c)⟩

/-- **Whatever the form, numbers that fit 64 bits with a sign are read.** -/
theorem toTags_of_lt (hv : IntegerForm tags v) (h : ∀ r c, HasWord (tags.get r c) ∧ tags.get r c < 2 ^ 63) :
    v.toTags = .ok ⟨d, tags.map wrapWord⟩ := by
  cases hv with
  | rows hd =>
    have htags : Value.areTags (.ofCells (tags.toList.map Value.ofInt)) = true := by
      refine (Content.areTags_ofCells_ints (Grid.toList_ne_nil hd)).2 ⟨true, fun n hn => ?_⟩
      obtain ⟨r, c, rfl⟩ := Grid.mem_toList.1 hn
      exact Content.ofInt_of_lt (h r c).1 (h r c).2
    rw [Value.toTags_rows hd, if_pos htags]
  | sized bits isSigned hbits hsort => exact Value.toTags_sized bits isSigned tags

/-- **A square of whole numbers is accepted if it is read and what is read is valid.** -/
theorem exists_ofValues_iff (hv : IntegerForm tags v) :
    (∃ G, Gram.ofValues v none = .ok G) ↔ v.toTags = .ok ⟨d, tags.map wrapWord⟩ ∧ ValidTags (tags.map wrapWord) := by
  constructor
  · rintro ⟨⟨e, g⟩, h⟩
    obtain ⟨hread, -⟩ := Gram.ofValues_eq_ok.1 h
    rcases hv.toTags_cases with ⟨hv', -⟩ | hv'
    · refine ⟨hv', ?_⟩
      obtain ⟨rfl, htags⟩ := Sigma.mk.inj (Except.ok.inj (hv'.symm.trans hread))
      rw [eq_of_heq htags]
      exact g.validTags
    · rw [hv'] at hread
      cases hread
  · rintro ⟨hread, hvalid⟩
    obtain ⟨g, hg⟩ := Gram.exists_ofTags_iff (α := Float).2 hvalid
    have htags : g.tags = tags.map wrapWord := Gram.tags_of_ofTags hg
    refine ⟨⟨d, g⟩, Gram.ofValues_eq_ok.2 ⟨?_, ?_⟩⟩
    · rw [htags, hread]
    · rw [htags]
      exact hg

/-- what is stored of an accepted square -/
theorem eq_of_ofValues (hv : IntegerForm tags v) {G : (d : ℕ) × Gram d Float} (h : Gram.ofValues v none = .ok G) :
    ∃ g : Gram d Float, G = ⟨d, g⟩ ∧ g.tags = tags.map wrapWord := by
  obtain ⟨e, g⟩ := G
  obtain ⟨hread, -⟩ := hv.exists_ofValues_iff.1 ⟨_, h⟩
  obtain ⟨hread', -⟩ := Gram.ofValues_eq_ok.1 h
  obtain ⟨rfl, htags⟩ := Sigma.mk.inj (Except.ok.inj (hread.symm.trans hread'))
  exact ⟨g, rfl, (eq_of_heq htags).symm⟩

/-- **Whatever is refused is refused for its value.** -/
theorem kind_of_ofValues (hv : IntegerForm tags v) {e : Fault} (h : Gram.ofValues v none = .error e) : e.kind = .value := by
  rcases hv.toTags_cases with ⟨hread, -⟩ | hread
  · have hofTags : Gram.ofValues v none = (Gram.ofTags (tags.map wrapWord) none).bind fun g => .ok ⟨d, g⟩ := by
      show v.toTags.bind _ = _
      rw [hread]
      rfl
    rw [hofTags] at h
    unfold Gram.ofTags at h
    split_ifs at h <;> cases h <;> rfl
  · have hofTags : Gram.ofValues v none = .error .tagsNotIntegers := by
      show v.toTags.bind _ = _
      rw [hread]
      rfl
    rw [hofTags] at h
    cases h
    rfl

/-- numbers of an accepted square are 64-bit numbers, at least -1 once they are read -/
theorem bounds_of_ofValues (hv : IntegerForm tags v) {G : (d : ℕ) × Gram d Float} (h : Gram.ofValues v none = .ok G) (r c : Fin d) :
    HasWord (tags.get r c) ∧ -1 ≤ wrapWord (tags.get r c) := by
  obtain ⟨hread, hvalid⟩ := hv.exists_ofValues_iff.1 ⟨G, h⟩
  rcases hv.toTags_cases with ⟨-, hword⟩ | hread'
  · have hleast := hvalid.least r c
    rw [Grid.get_map] at hleast
    exact ⟨hword r c, hleast⟩
  · rw [hread] at hread'
    cases hread'

/-- **A number from 2^63 on is accepted only if it is 2^64 - 1.** -/
theorem eq_of_ge (hv : IntegerForm tags v) {G : (d : ℕ) × Gram d Float} (h : Gram.ofValues v none = .ok G) {r c : Fin d}
    (hge : 2 ^ 63 ≤ tags.get r c) : tags.get r c = 2 ^ 64 - 1 := by
  obtain ⟨hword, hleast⟩ := hv.bounds_of_ofValues h r c
  rw [wrapWord_of_ge hword hge] at hleast
  obtain ⟨-, hhi⟩ := hword
  omega

/-- **What is accepted with such a number is not valid,** for lack of the numbers below it. -/
theorem not_valid_of_ge (hv : IntegerForm tags v) {G : (d : ℕ) × Gram d Float} (h : Gram.ofValues v none = .ok G) {r c : Fin d}
    (hge : 2 ^ 63 ≤ tags.get r c) : ¬ ValidTags tags := by
  intro hvalid
  have hlast := hv.eq_of_ge h hge
  obtain ⟨k, hk⟩ := hvalid.contiguous
  have hbelow := (hk (tags.get r c) (by omega)).1 ⟨r, c, rfl⟩
  obtain ⟨r', c', hfirst⟩ := (hk (2 ^ 63) (by norm_num)).2 ⟨by norm_num, by omega⟩
  have hlast' := hv.eq_of_ge h (r := r') (c := c') hfirst.ge
  omega

/-- numbers below 2^63 that are accepted are read unchanged -/
theorem map_wrapWord_of_lt (hv : IntegerForm tags v) {G : (d : ℕ) × Gram d Float} (h : Gram.ofValues v none = .ok G)
    (hlt : ∀ r c, tags.get r c < 2 ^ 63) : tags.map wrapWord = tags :=
  map_wrapWord fun r c => wrapWord_of_lt (hv.bounds_of_ofValues h r c).1 (hlt r c)

/-- **Below 2^63 exactly the valid tags are accepted.** -/
theorem exists_ofValues_iff_of_lt (hv : IntegerForm tags v) (hlt : ∀ r c, tags.get r c < 2 ^ 63) :
    (∃ G, Gram.ofValues v none = .ok G) ↔ ValidTags tags := by
  constructor
  · rintro ⟨G, h⟩
    rw [← hv.map_wrapWord_of_lt h hlt]
    exact (hv.exists_ofValues_iff.1 ⟨G, h⟩).2
  · intro hvalid
    have hword : ∀ r c, HasWord (tags.get r c) := by
      intro r c
      have hleast := hvalid.least r c
      have hsmall := hlt r c
      exact ⟨by omega, by omega⟩
    refine hv.exists_ofValues_iff.2 ⟨hv.toTags_of_lt fun r c => ⟨hword r c, hlt r c⟩, ?_⟩
    rwa [map_wrapWord fun r c => wrapWord_of_lt (hword r c) (hlt r c)]

end IntegerForm

/-- **What is accepted as tags, and what is stored of it.** For every square of whole numbers, given as a list of rows or as a typed array
of at most 64 bits, without phases:
a Gram matrix stores the low 64 bits of the numbers, read with a sign, and there is one exactly if these are read and are valid tags;
while all numbers are below 2^63, there is one exactly if the numbers are valid tags, and it stores them unchanged;
a number from 2^63 on is accepted only if it is 2^64 - 1, which is stored as the tag of a zero cell; the square is not valid then.
Whatever is refused is refused for its value. -/
theorem tags_accepted {d : ℕ} (tags : Grid d Int) {v : Value} (hv : IntegerForm tags v) :
    ((∃ G, Gram.ofValues v none = .ok G) ↔ v.toTags = .ok ⟨d, tags.map wrapWord⟩ ∧ ValidTags (tags.map wrapWord)) ∧
    (∀ G, Gram.ofValues v none = .ok G → ∃ g : Gram d Float, G = ⟨d, g⟩ ∧ g.tags = tags.map wrapWord) ∧
    ((∀ r c, tags.get r c < 2 ^ 63) → ((∃ G, Gram.ofValues v none = .ok G) ↔ ValidTags tags) ∧
      ∀ G, Gram.ofValues v none = .ok G → ∃ g : Gram d Float, G = ⟨d, g⟩ ∧ g.tags = tags) ∧
    (∀ r c, 2 ^ 63 ≤ tags.get r c → ∀ G, Gram.ofValues v none = .ok G → tags.get r c = 2 ^ 64 - 1 ∧ ¬ ValidTags tags ∧
      ∃ g : Gram d Float, G = ⟨d, g⟩ ∧ g.tags.get r c = -1) ∧
    ∀ e, Gram.ofValues v none = .error e → e.kind = .value := by
  refine ⟨hv.exists_ofValues_iff, fun G => hv.eq_of_ofValues, fun hlt => ⟨hv.exists_ofValues_iff_of_lt hlt, fun G hG => ?_⟩,
    fun r c hge G hG => ⟨hv.eq_of_ge hG hge, hv.not_valid_of_ge hG hge, ?_⟩, fun e => hv.kind_of_ofValues⟩
  · obtain ⟨g, rfl, htags⟩ := hv.eq_of_ofValues hG
    exact ⟨g, rfl, htags.trans (hv.map_wrapWord_of_lt hG hlt)⟩
  · obtain ⟨g, rfl, htags⟩ := hv.eq_of_ofValues hG
    refine ⟨g, rfl, ?_⟩
    rw [htags, Grid.get_map, hv.eq_of_ge hG hge]
    decide

/-- 0 and 1 with a zero cell, as a list of rows and as a typed array of 8 bits with a sign -/
theorem tags_accepted_sized : (∃ G, Gram.ofValues (.ofIntRows zeroCellTags) none = .ok G) ∧
    ∃ g : Gram 2 Float, Gram.ofValues (.ofSized 8 true zeroCellTags) none = .ok ⟨2, g⟩ ∧ g.tags = zeroCellTags := by
  have hvalid : ValidTags zeroCellTags :=
    Gram.exists_ofTags_iff.1 (Outcome.exists_ok (x := Gram.ofTags (α := Float) zeroCellTags none) (by decide +kernel))
  have hlt : ∀ r c, zeroCellTags.get r c < 2 ^ 63 := by decide
  have hrows : IntegerForm zeroCellTags (.ofIntRows zeroCellTags) := .rows two_pos
  have hsized : IntegerForm zeroCellTags (.ofSized 8 true zeroCellTags) := .sized 8 true (by norm_num) (by decide)
  obtain ⟨-, -, hrows', -⟩ := tags_accepted zeroCellTags hrows
  obtain ⟨-, -, hsized', -⟩ := tags_accepted zeroCellTags hsized
  obtain ⟨G, hG⟩ := (hsized' hlt).1.2 hvalid
  obtain ⟨g, rfl, htags⟩ := (hsized' hlt).2 G hG
  exact ⟨(hrows' hlt).1.2 hvalid, g, hG, htags⟩

/-- the one tag 2^64 - 1 -/
def largestWord : Grid 1 Int := ⟨#v[2 ^ 64 - 1]⟩

/-- **A tag that is no zero cell is accepted for one:** 2^64 - 1 stands alone, which is not valid, and is stored as -1. -/
theorem tags_wrapped : ∃ g : Gram 1 Float, Gram.ofValues (.list [.list [.ofInt (2 ^ 64 - 1)]]) none = .ok ⟨1, g⟩ ∧
    ¬ ValidTags largestWord ∧ largestWord.get 0 0 = 2 ^ 64 - 1 ∧ g.tags.get 0 0 = -1 := by
  have hrows : IntegerForm largestWord (.ofIntRows largestWord) := .rows one_pos
  have hread : (Value.ofIntRows largestWord).toTags = .ok ⟨1, largestWord.map wrapWord⟩ := by
    rw [Value.toTags_rows one_pos, if_pos (by decide)]
  have hvalid : ValidTags (largestWord.map wrapWord) :=
    Gram.exists_ofTags_iff.1 (Outcome.exists_ok (x := Gram.ofTags (α := Float) (largestWord.map wrapWord) none) (by decide +kernel))
  obtain ⟨G, hG⟩ := hrows.exists_ofValues_iff.2 ⟨hread, hvalid⟩
  have hge : 2 ^ 63 ≤ largestWord.get 0 0 := by decide
  obtain ⟨g, rfl, htags⟩ := hrows.eq_of_ofValues hG
  refine ⟨g, hG, hrows.not_valid_of_ge hG hge, rfl, ?_⟩
  rw [htags, Grid.get_map, hrows.eq_of_ge hG hge]
  decide

end MomentProgram
