/-
Results of computations that may be refused.

A chain of steps has a result only if every step has one, and the same for a step applied to each element of a list. The lemmas take
a result apart that way; `mapM_of_ok` is the converse for steps that are never refused.
-/
import Mathlib
import MomentProgram.Fault

namespace MomentProgram.Outcome

variable {α β γ : Type}

theorem bind_ok {x : Outcome α} {f : α → Outcome β} {b : β} : (x >>= f) = .ok b ↔ ∃ a, x = .ok a ∧ f a = .ok b := by
  cases x <;> simp [bind, Except.bind]

theorem map_ok {x : Outcome α} {f : α → β} {b : β} : x.map f = .ok b ↔ ∃ a, x = .ok a ∧ f a = b := by
  cases x <;> simp [Except.map]

theorem mapError_ok {x : Outcome α} {f : Fault → Fault} {a : α} : x.mapError f = .ok a ↔ x = .ok a := by
  cases x <;> simp [Except.mapError]

theorem not_refused (a : α) : ¬ ∃ e, (.ok a : Outcome α) = .error e := by
  rintro ⟨e, h⟩
  cases h

theorem map_refused {x : Outcome α} {f : α → β} : (∃ e, x.map f = .error e) ↔ ∃ e, x = .error e := by
  cases x with
  | error e => exact iff_of_true ⟨e, rfl⟩ ⟨e, rfl⟩
  | ok a => exact iff_of_false (not_refused (f a)) (not_refused a)

theorem bind_refused {x : Outcome α} {f : α → Outcome β} (h : ∀ a, ∃ e, f a = .error e) : ∃ e, (x >>= f) = .error e := by
  cases x with
  | error e => exact ⟨e, rfl⟩
  | ok a => exact h a

theorem exists_ok {x : Outcome α} (h : x.toOption.isSome = true) : ∃ a, x = .ok a := by
  cases x with
  | error e => cases h
  | ok a => exact ⟨a, rfl⟩

/-- a list of results is one result for each element, in order -/
theorem mapM_ok {f : α → Outcome β} {l : List α} {r : List β} :
    l.mapM f = .ok r ↔ List.Forall₂ (fun a b => f a = .ok b) l r := by
  induction l generalizing r with
  | nil => simp [pure, Except.pure, eq_comm]
  | cons a l ih =>
    rw [List.mapM_cons, bind_ok]
    simp only [bind_ok, ih]
    constructor
    · rintro ⟨b, hb, bs, hbs, hr⟩
      cases hr
      exact .cons hb hbs
    · rintro (_ | ⟨hb, hbs⟩)
      exact ⟨_, hb, _, hbs, rfl⟩

theorem mapM_of_ok {f : α → Outcome β} {g : α → β} {l : List α} (h : ∀ a ∈ l, f a = .ok (g a)) : l.mapM f = .ok (l.map g) := by
  rw [mapM_ok, List.forall₂_map_right_iff, List.forall₂_same]
  exact h

/-- **The first refusal in a list is the one that is reported.** -/
theorem mapM_error {f : α → Outcome β} {before after : List α} {a : α} {e : Fault} (hbefore : ∀ b ∈ before, ∃ x, f b = .ok x)
    (ha : f a = .error e) : (before ++ a :: after).mapM f = .error e := by
  induction before with
  | nil => rw [List.nil_append, List.mapM_cons, ha]; rfl
  | cons b before ih =>
    obtain ⟨⟨x, hx⟩, hbefore⟩ := List.forall_mem_cons.1 hbefore
    rw [List.cons_append, List.mapM_cons, hx, ih hbefore]
    rfl

/-- either every element of a list has a result, or one of them is the first that is refused -/
theorem all_ok_or_first_error (f : α → Outcome β) (l : List α) :
    (∀ a ∈ l, ∃ x, f a = .ok x) ∨
      ∃ before a after e, l = before ++ a :: after ∧ (∀ b ∈ before, ∃ x, f b = .ok x) ∧ f a = .error e := by
  induction l with
  | nil => exact .inl fun _ ha => absurd ha List.not_mem_nil
  | cons a l ih =>
    cases ha : f a with
    | error e => exact .inr ⟨[], a, l, e, rfl, fun _ hb => absurd hb List.not_mem_nil, ha⟩
    | ok x =>
      rcases ih with hall | ⟨before, b, after, e, rfl, hbefore, hb⟩
      · exact .inl (List.forall_mem_cons.2 ⟨⟨x, ha⟩, hall⟩)
      · exact .inr ⟨a :: before, b, after, e, rfl, List.forall_mem_cons.2 ⟨⟨x, ha⟩, hbefore⟩, hb⟩

/-- a list of elements that have results has a list of results -/
theorem exists_forall₂_ok {f : α → Outcome β} {l : List α} (h : ∀ a ∈ l, ∃ x, f a = .ok x) :
    ∃ xs, List.Forall₂ (fun a x => f a = .ok x) l xs := by
  induction l with
  | nil => exact ⟨[], .nil⟩
  | cons a l ih =>
    obtain ⟨⟨x, hx⟩, hl⟩ := List.forall_mem_cons.1 h
    obtain ⟨xs, hxs⟩ := ih hl
    exact ⟨x :: xs, .cons hx hxs⟩

/-- every element of one of two related lists has a related one in the other -/
theorem exists_related {r : α → β → Prop} {l : List α} {xs : List β} (h : List.Forall₂ r l xs) {x : β} (hx : x ∈ xs) :
    ∃ a ∈ l, r a x := by
  induction h with
  | nil => exact absurd hx List.not_mem_nil
  | @cons a y l xs hay _ ih =>
    rcases List.mem_cons.1 hx with rfl | hx
    · exact ⟨a, List.mem_cons_self, hay⟩
    · obtain ⟨b, hb, hbx⟩ := ih hx
      exact ⟨b, List.mem_cons_of_mem a hb, hbx⟩

/-- steps that have results on the way to those of other steps -/
theorem mapM_bind_of_forall₂ {f : α → Outcome β} {l : List α} {xs : List β} (h : List.Forall₂ (fun a x => f a = .ok x) l xs)
    (g : β → Outcome γ) : (l.mapM fun a => f a >>= g) = xs.mapM g := by
  induction h with
  | nil => rfl
  | cons hax _ ih =>
    rw [List.mapM_cons, List.mapM_cons, ih, hax]
    rfl

/-- a list with an element that is refused is refused -/
theorem mapM_refused {f : α → Outcome β} {l : List α} {a : α} (ha : a ∈ l) (h : ∃ e, f a = .error e) : ∃ e, l.mapM f = .error e := by
  cases hl : l.mapM f with
  | error e => exact ⟨e, rfl⟩
  | ok xs =>
    obtain ⟨x, -, hx⟩ := exists_related (mapM_ok.1 hl).flip ha
    obtain ⟨e, he⟩ := h
    rw [show f a = .ok x from hx] at he
    cases he

/-- results that differ from each other come from different elements -/
theorem nodup_of_pairwise {f : α → Outcome β} {r : β → β → Prop} (hr : ∀ b, ¬ r b b) {l : List α} {xs : List β}
    (h : List.Forall₂ (fun a x => f a = .ok x) l xs) (hxs : xs.Pairwise r) : l.Nodup := by
  induction h with
  | nil => exact .nil
  | @cons a x l xs hax hrest ih =>
    obtain ⟨hfirst, hxs⟩ := List.pairwise_cons.1 hxs
    refine List.nodup_cons.2 ⟨fun ha => ?_, ih hxs⟩
    obtain ⟨y, hy, hay⟩ := exists_related hrest.flip ha
    obtain rfl : x = y := Except.ok.inj (hax.symm.trans hay)
    exact hr x (hfirst x hy)

end MomentProgram.Outcome
