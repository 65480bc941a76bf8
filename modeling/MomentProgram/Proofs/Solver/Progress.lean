/-
How far an activity gets.

What an activity is about to do can be written down beforehand as a word of steps: calls on the solver, and looks at values that may
turn out to be unreadable. `progress` follows such a word up to the first call that is refused or the first look that fails: it says
which calls were made and which refusal ended the word. An activity that `Runs` a word makes exactly those calls and ends with exactly
that refusal; words are joined as activities are (`Runs.bind`).

Opening is different, because what was opened has to be closed when the word ends, wherever that is. An activity that `Closes` a word
makes the calls of the word as far as it gets, and then closes what it opened, in the opposite order. What opens and closes is a generator
around its work, and knows its own refusals from those of the work (`Surrounds`): the ones leave it as generators let them, the others pass
(`Leaves`). `Closes.within` puts a pair of opening calls in front of such an activity and the closing call behind it; the proof goes
through the two places at which the pair may be refused, and the invariant is that nothing but the calls of the word has been made when
the closing starts.
-/
import Mathlib
import MomentProgram.Solver.Activity

namespace MomentProgram

/-- a call, or a look at a value, with the refusal if it cannot be read -/
inductive Step where
  | call (c : Call Float)
  | look (refusal : Option Fault)

/-- why there is no result, if there is none -/
def Outcome.refusal {α : Type} : Outcome α → Option Fault
  | .ok _ => none
  | .error e => some e

/-- two ends as one: what went on around some work is refused, or the work ends -/
def Outcome.joined {α : Type} (out : Outcome (Outcome α)) : Outcome α := out.bind id

/-- the calls of a word, if nothing in it fails -/
def callsOf (w : List Step) : List (Call Float) :=
  w.filterMap fun
    | .call c => some c
    | .look _ => none

@[simp] theorem callsOf_append (w w' : List Step) : callsOf (w ++ w') = callsOf w ++ callsOf w' := List.filterMap_append

@[simp] theorem callsOf_nil : callsOf [] = [] := rfl

@[simp] theorem callsOf_call (c : Call Float) (w : List Step) : callsOf (.call c :: w) = c :: callsOf w := rfl

@[simp] theorem callsOf_look (r : Option Fault) (w : List Step) : callsOf (.look r :: w) = callsOf w := rfl

@[simp] theorem callsOf_map_call (cs : List (Call Float)) : callsOf (cs.map .call) = cs := by
  induction cs with
  | nil => rfl
  | cons c cs ih => exact congrArg (c :: ·) ih

/-- how far a word of steps got -/
structure Progress where
  /-- the calls that were made and accepted -/
  accepted : List (Call Float)
  /-- the call that was made and refused -/
  refused : Option (Call Float)
  /-- what ended the word early: the refusal of a call, or of a look -/
  refusal : Option Fault

/-- a word of steps after some calls, up to the first step that fails -/
def progress (S : Solver) : List (Call Float) → List Step → Progress
  | _, [] => ⟨[], none, none⟩
  | past, .look none :: w => progress S past w
  | _, .look (some e) :: _ => ⟨[], none, some e⟩
  | past, .call c :: w => match S.refuses past c with
    | some e => ⟨[], some c, some e⟩
    | none =>
      let p := progress S (past ++ [c]) w
      { p with accepted := c :: p.accepted }

/-- closing calls are never refused -/
def Solver.ClosesFreely (S : Solver) : Prop :=
  ∀ past passing, S.refuses past (.closeTask passing) = none ∧ S.refuses past (.closeEnv passing) = none

/-- how what a call opens is closed -/
def closing? : Call Float → Option (Option Kind → Call Float)
  | .enterEnv => some .closeEnv
  | .enterTask => some .closeTask
  | _ => none

namespace Progress

variable (p : Progress)

/-- the calls that were made, the refused one included -/
def made : List (Call Float) := p.accepted ++ p.refused.toList

/-- the closing calls: what was opened last is closed first, told the family of the refusal -/
def closings : List (Call Float) :=
  (p.accepted.filterMap closing?).reverse.map fun close => close (p.refusal.map Fault.kind)

/-- the outcome of an activity that got so far: the refusal as it came, or a good result -/
def Yields {β : Type} (good : β → Prop) (out : Outcome β) : Prop :=
  match p.refusal with
  | some e => out = .error e
  | none => ∃ b, out = .ok b ∧ good b

theorem Yields.refusal_eq {p : Progress} {β : Type} {good : β → Prop} {out : Outcome β} (h : p.Yields good out) :
    out.refusal = p.refusal := by
  unfold Yields at h
  split at h
  · next e he => rw [h, he]; rfl
  · next hp =>
    obtain ⟨b, rfl, -⟩ := h
    exact hp.symm

/-- a call that opens nothing asks for no closing call -/
theorem closings_cons_of_none {c : Call Float} (h : closing? c = none) :
    { p with accepted := c :: p.accepted }.closings = p.closings := by
  simp only [closings, List.filterMap_cons_none h]

/-- what a call opens is closed last -/
theorem closings_cons_of_some {c : Call Float} {close : Option Kind → Call Float} (h : closing? c = some close) :
    { p with accepted := c :: p.accepted }.closings = p.closings ++ [close (p.refusal.map Fault.kind)] := by
  simp only [closings, List.filterMap_cons_some h, List.reverse_cons, List.map_append, List.map_cons, List.map_nil]

end Progress

section Words

variable {S : Solver} {past : List (Call Float)} {c : Call Float} {w : List Step} {e : Fault}

@[simp] theorem progress_nil : progress S past [] = ⟨[], none, none⟩ := rfl

@[simp] theorem progress_look_none : progress S past (.look none :: w) = progress S past w := rfl

@[simp] theorem progress_look_some : progress S past (.look (some e) :: w) = ⟨[], none, some e⟩ := rfl

theorem progress_call_refused (h : S.refuses past c = some e) : progress S past (.call c :: w) = ⟨[], some c, some e⟩ := by
  simp only [progress, h]

theorem progress_call_accepted (h : S.refuses past c = none) :
    progress S past (.call c :: w) =
      { progress S (past ++ [c]) w with accepted := c :: (progress S (past ++ [c]) w).accepted } := by
  simp only [progress, h]

/-- calls that are never refused are all made -/
theorem progress_map_call {cs : List (Call Float)} (h : ∀ past, ∀ c ∈ cs, S.refuses past c = none) :
    progress S past (cs.map .call ++ w) =
      { progress S (past ++ cs) w with accepted := cs ++ (progress S (past ++ cs) w).accepted } := by
  induction cs generalizing past with
  | nil => rw [List.append_nil]; rfl
  | cons c cs ih =>
    rw [List.map_cons, List.cons_append, progress_call_accepted (h past c List.mem_cons_self),
      ih fun past c' hc' => h past c' (List.mem_cons_of_mem c hc'), ← List.append_cons past c cs]
    rfl

/-- a word in which no look fails, with a solver that refuses nothing, is gone through to its end -/
theorem progress_accepting (haccepts : ∀ past c, S.refuses past c = none) (hlooks : ∀ r, Step.look r ∈ w → r = none) :
    progress S past w = ⟨callsOf w, none, none⟩ := by
  induction w generalizing past with
  | nil => rfl
  | cons s w ih =>
    have hw : ∀ r, Step.look r ∈ w → r = none := fun r hr => hlooks r (List.mem_cons_of_mem s hr)
    match s with
    | .look none => exact ih hw
    | .look (some e) => cases hlooks (some e) List.mem_cons_self
    | .call c =>
      rw [progress_call_accepted (haccepts past c), ih hw]
      rfl

/-- **What is made is the beginning of the word,** and all of it if nothing fails. -/
theorem made_begins (S : Solver) (past : List (Call Float)) (w : List Step) :
    (progress S past w).made <+: callsOf w ∧ ((progress S past w).refusal = none → (progress S past w).made = callsOf w) := by
  induction w generalizing past with
  | nil => exact ⟨List.prefix_rfl, fun _ => rfl⟩
  | cons s w ih =>
    match s with
    | .look none => exact ih past
    | .look (some e) => exact ⟨List.nil_prefix, fun h => by cases h⟩
    | .call c =>
      cases hc : S.refuses past c with
      | some e =>
        rw [progress_call_refused hc]
        exact ⟨List.prefix_append [c] (callsOf w), fun h => by cases h⟩
      | none =>
        rw [progress_call_accepted hc]
        obtain ⟨hbegins, hall⟩ := ih (past ++ [c])
        exact ⟨List.cons_prefix_cons.2 ⟨rfl, hbegins⟩, fun h => congrArg (c :: ·) (hall h)⟩

/-- the second of two words starts where the first one ends, if that gets to its end -/
theorem progress_append (S : Solver) (past : List (Call Float)) (w w' : List Step) :
    progress S past (w ++ w') =
      match (progress S past w).refusal with
      | some _ => progress S past w
      | none =>
        let p := progress S (past ++ (progress S past w).made) w'
        { p with accepted := (progress S past w).made ++ p.accepted } := by
  induction w generalizing past with
  | nil => simp [Progress.made]
  | cons s w ih =>
    match s with
    | .look none => exact ih past
    | .look (some e) => rfl
    | .call c =>
      rw [List.cons_append]
      cases hc : S.refuses past c with
      | some e => simp only [progress_call_refused hc]
      | none =>
        simp only [progress_call_accepted hc, ih (past ++ [c])]
        cases hw : (progress S (past ++ [c]) w).refusal with
        | some e => simp only [hw]
        | none => simp [Progress.made]

/-- a solver that refuses nothing goes on up to the first look that fails -/
theorem progress_until (haccepts : ∀ past c, S.refuses past c = none) (hlooks : ∀ r, Step.look r ∈ w → r = none) (rest : List Step) :
    progress S past (w ++ .look (some e) :: rest) = ⟨callsOf w, none, some e⟩ := by
  rw [progress_append, progress_accepting haccepts hlooks]
  simp [Progress.made]

end Words

/-! ## Activities that run a word -/

namespace Activity

variable {β γ : Type}

theorem bind_apply (a : Activity β) (f : β → Activity γ) (h : History) :
    (a >>= f) h = match a h with
      | (.ok b, h') => f b h'
      | (.error e, h') => (.error e, h') := rfl

theorem bind_of_error {a : Activity β} {f : β → Activity γ} {h : History} {e : Fault} (ha : (a h).1 = .error e) :
    (a >>= f) h = (.error e, (a h).2) := by
  rw [bind_apply]
  cases hr : a h with | mk out h' =>
  rw [hr] at ha
  cases ha
  rfl

theorem bind_of_ok {a : Activity β} {f : β → Activity γ} {h : History} {b : β} (ha : (a h).1 = .ok b) :
    (a >>= f) h = f b (a h).2 := by
  rw [bind_apply]
  cases hr : a h with | mk out h' =>
  rw [hr] at ha
  cases ha
  rfl

theorem bind_assoc {δ : Type} (a : Activity β) (f : β → Activity γ) (g : γ → Activity δ) :
    (a >>= f) >>= g = a >>= fun b => f b >>= g := by
  funext h
  simp only [bind_apply]
  rcases a h with ⟨_ | b, h'⟩ <;> rfl

/-- a value that can be read is passed on -/
theorem lift_ok_bind (b : β) (f : β → Activity γ) : lift (.ok b) >>= f = f b := rfl

/-- closing calls that are never refused leave the outcome alone, and are told what ended the activity or the work in it -/
theorem closing_apply {S : Solver} {close : Option Kind → Call Float} (hfree : ∀ past k, S.refuses past (close k) = none)
    (body : Activity (Outcome β)) (h : History) :
    closing S close body h = ((body h).1,
      { (body h).2 with calls := (body h).2.calls ++ [close ((Outcome.joined (body h).1).refusal.map Fault.kind)] }) := by
  rcases hb : body h with ⟨_ | (_ | _), h'⟩ <;> simp only [closing, call, hb, hfree] <;> rfl

end Activity

/-- **An activity runs a word** if it makes the calls of the word as far as it gets, and ends with what ended the word or with a good
result. The codes of the package can be found before and after. -/
def Runs (S : Solver) (offered : Option Codes) (codes : Codes) {β : Type} (a : Activity β) (w : List Step) (good : β → Prop) : Prop :=
  ∀ h : History, h.linkage.resolve offered = .loaded codes →
    (a h).2.calls = h.calls ++ (progress S h.calls w).made ∧ (a h).2.linkage.resolve offered = .loaded codes ∧
      (progress S h.calls w).Yields good (a h).1

namespace Runs

variable {S : Solver} {offered : Option Codes} {codes : Codes} {β γ : Type}

theorem pure {b : β} {good : β → Prop} (hb : good b) : Runs S offered codes (Pure.pure b) [] good :=
  fun _ hl => ⟨(List.append_nil _).symm, hl, b, rfl, hb⟩

theorem call (c : Call Float) : Runs S offered codes (Activity.call S c) [.call c] fun _ => True := by
  intro h hl
  cases hc : S.refuses h.calls c with
  | some e =>
    rw [progress_call_refused hc]
    refine ⟨rfl, hl, ?_⟩
    simp only [Progress.Yields, Activity.call, hc]
  | none =>
    rw [progress_call_accepted hc]
    refine ⟨rfl, hl, (), ?_, trivial⟩
    simp only [Activity.call, hc]

/-- a value that is looked at is the one that is found -/
theorem lift (r : Outcome β) : Runs S offered codes (Activity.lift r) [.look (Outcome.refusal r)] (r = .ok ·) := by
  intro h hl
  cases r with
  | error e => exact ⟨(List.append_nil _).symm, hl, rfl⟩
  | ok b => exact ⟨(List.append_nil _).symm, hl, b, rfl, rfl⟩

theorem record (level : Level) (text : String) : Runs S offered codes (Activity.record level text) [] fun _ => True :=
  fun _ hl => ⟨(List.append_nil _).symm, hl, (), rfl, trivial⟩

theorem requirePackage : Runs S offered codes (Activity.requirePackage offered) [] (· = codes) := by
  intro h hl
  have hrun : Activity.requirePackage offered h = (.ok codes, { h with linkage := .loaded codes }) := by
    simp only [Activity.requirePackage, hl]
  rw [hrun]
  exact ⟨(List.append_nil _).symm, rfl, codes, rfl, rfl⟩

/-- **One activity after the other runs the words one after the other.** -/
theorem bind {a : Activity β} {f : β → Activity γ} {w v : List Step} {good : β → Prop} {good' : γ → Prop}
    (ha : Runs S offered codes a w good) (hf : ∀ b, good b → Runs S offered codes (f b) v good') :
    Runs S offered codes (a >>= f) (w ++ v) good' := by
  intro h hl
  obtain ⟨hcalls, hlinkage, hout⟩ := ha h hl
  rw [progress_append]
  cases hw : (progress S h.calls w).refusal with
  | some e =>
    simp only [Progress.Yields, hw] at hout
    rw [Activity.bind_of_error hout]
    refine ⟨hcalls, hlinkage, ?_⟩
    simp only [Progress.Yields, hw]
  | none =>
    simp only [Progress.Yields, hw] at hout
    obtain ⟨b, hb, hgood⟩ := hout
    obtain ⟨hcalls', hlinkage', hout'⟩ := hf b hgood (a h).2 hlinkage
    rw [Activity.bind_of_ok hb]
    rw [hcalls] at hcalls' hout'
    refine ⟨?_, hlinkage', hout'⟩
    rw [hcalls']
    simp [Progress.made]

theorem calls (cs : List (Call Float)) : Runs S offered codes (Activity.calls S cs) (cs.map .call) fun _ => True := by
  induction cs with
  | nil => exact Runs.pure trivial
  | cons c cs ih => exact (Runs.call c).bind fun _ _ => ih

theorem recordAll (level : Level) (ts : List String) : Runs S offered codes (Activity.recordAll level ts) [] fun _ => True := by
  induction ts with
  | nil => exact Runs.pure trivial
  | cons t ts ih => exact (Runs.record level t).bind fun _ _ => ih

end Runs

/-! ## Activities that close what they open -/

/-- **An activity closes a word** if it makes the calls of the word as far as it gets, closes what it has opened, and ends as it should
after the calls before. -/
def Closes (S : Solver) (offered : Option Codes) (codes : Codes) {γ : Type} (a : Activity γ) (w : List Step)
    (ends : List (Call Float) → Outcome γ → Prop) : Prop :=
  ∀ h : History, h.linkage.resolve offered = .loaded codes →
    (a h).2.calls = h.calls ++ (progress S h.calls w).made ++ (progress S h.calls w).closings ∧
      (a h).2.linkage.resolve offered = .loaded codes ∧ ends h.calls (a h).1

/-- the end of what goes on around some work: its own word is refused, or the work ends as its word does -/
def Surrounds (S : Solver) {β : Type} (own work : List Step) (good : β → Prop) (past : List (Call Float)) (out : Outcome (Outcome β)) :
    Prop :=
  match (progress S past own).refusal with
  | some e => out = .error e
  | none => ∃ r, out = .ok r ∧ (progress S past (own ++ work)).Yields good r

/-- the same, once it has left the generator -/
def Leaves (S : Solver) {β : Type} (own work : List Step) (good : β → Prop) (past : List (Call Float)) (out : Outcome β) : Prop :=
  match (progress S past own).refusal with
  | some e => out = .error e.outOfGenerator
  | none => (progress S past (own ++ work)).Yields good out

section Ends

variable {S : Solver} {β : Type} {own work : List Step} {good : β → Prop} {past : List (Call Float)}

/-- seen as one word, what goes on around some work ends with the refusal of that word -/
theorem Surrounds.refusal_eq {out : Outcome (Outcome β)} (h : Surrounds S own work good past out) :
    (Outcome.joined out).refusal = (progress S past (own ++ work)).refusal := by
  unfold Surrounds at h
  split at h
  · next e he => rw [h, progress_append, he]; exact he.symm
  · obtain ⟨r, rfl, hr⟩ := h
    exact hr.refusal_eq

/-- a pair of accepted calls in front belongs to the own word -/
theorem surrounds_cons {make enter : Call Float} (hm : S.refuses past make = none) (he : S.refuses (past ++ [make]) enter = none)
    {out : Outcome (Outcome β)} :
    Surrounds S (.call make :: .call enter :: own) work good past out ↔ Surrounds S own work good (past ++ [make] ++ [enter]) out := by
  unfold Surrounds
  simp only [List.cons_append, progress_call_accepted hm, progress_call_accepted he, Progress.Yields]

/-- what is made of the end of a session behind it: a refusal stays, a good result becomes one -/
theorem Leaves.map {γ : Type} {good' : γ → Prop} {out : Outcome β} {out' : Outcome γ} (h : Leaves S own work good past out)
    (herror : ∀ e, out = .error e → out' = .error e) (hok : ∀ b, out = .ok b → good b → ∃ c, out' = .ok c ∧ good' c) :
    Leaves S own work good' past out' := by
  unfold Leaves Progress.Yields at *
  split at h
  · exact herror _ h
  · split at h
    · exact herror _ h
    · obtain ⟨b, hb, hgood⟩ := h
      exact hok b hb hgood

end Ends

/-- accepted calls are calls of the word -/
theorem accepted_subset (S : Solver) (past : List (Call Float)) (w : List Step) :
    ∀ c ∈ (progress S past w).accepted, c ∈ callsOf w :=
  fun _ hc => (made_begins S past w).1.subset (List.mem_append_left _ hc)

namespace Closes

variable {S : Solver} {offered : Option Codes} {codes : Codes} {β γ : Type}

/-- **Setting up and then working** makes the calls of both words; where nothing is opened, nothing is closed. -/
theorem of_runs {a : Activity γ} {work : Activity β} {u w : List Step} {ready : γ → Prop} {good : β → Prop}
    (ha : Runs S offered codes a u ready) (hwork : Runs S offered codes work w good)
    (hu : ∀ c ∈ callsOf u, closing? c = none) (hw : ∀ c ∈ callsOf w, closing? c = none) :
    Closes S offered codes (a >>= fun _ => Activity.attempt work) (u ++ w) (Surrounds S u w good) := by
  intro h hl
  have hnone : (progress S h.calls (u ++ w)).closings = [] := by
    have hcalls : ∀ c ∈ callsOf (u ++ w), closing? c = none := by
      rw [callsOf_append]
      exact List.forall_mem_append.2 ⟨hu, hw⟩
    rw [Progress.closings, List.filterMap_eq_nil_iff.2 fun c hc => hcalls c (accepted_subset S h.calls (u ++ w) c hc)]
    rfl
  rw [hnone, List.append_nil]
  obtain ⟨hcalls, hlinkage, hout⟩ := ha h hl
  unfold Surrounds
  cases hrefusal : (progress S h.calls u).refusal with
  | some e =>
    simp only [Progress.Yields, hrefusal] at hout
    rw [Activity.bind_of_error hout, progress_append, hrefusal]
    exact ⟨hcalls, hlinkage, rfl⟩
  | none =>
    simp only [Progress.Yields, hrefusal] at hout
    obtain ⟨b, hb, -⟩ := hout
    -- from here on the work is seen by its word alone
    obtain ⟨hboth, hlinkage', hend⟩ := (ha.bind fun _ _ => hwork) h hl
    rw [Activity.bind_of_ok hb] at hboth hlinkage' hend
    rw [Activity.bind_of_ok hb]
    exact ⟨hboth, hlinkage', _, rfl, hend⟩

/-- an activity without calls in front -/
theorem after {a : Activity β} {f : β → Activity γ} {w : List Step} {good : β → Prop} {ends : List (Call Float) → Outcome γ → Prop}
    (ha : Runs S offered codes a [] good) (hf : ∀ b, good b → Closes S offered codes (f b) w ends) :
    Closes S offered codes (a >>= f) w ends := by
  intro h hl
  obtain ⟨hcalls, hlinkage, b, hb, hgood⟩ := ha h hl
  obtain ⟨hcalls', hlinkage', hout'⟩ := hf b hgood (a h).2 hlinkage
  rw [hcalls.trans (List.append_nil _)] at hcalls' hout'
  rw [Activity.bind_of_ok hb]
  exact ⟨hcalls', hlinkage', hout'⟩

/-- an activity without calls behind, which changes nothing about how it ended -/
theorem followed {a : Activity β} {f : β → Activity γ} {w : List Step} {ends : List (Call Float) → Outcome β → Prop}
    {ends' : List (Call Float) → Outcome γ → Prop} (ha : Closes S offered codes a w ends)
    (herror : ∀ past e, ends past (.error e) → ends' past (.error e))
    (hok : ∀ past b, ends past (.ok b) → Runs S offered codes (f b) [] fun c => ends' past (.ok c)) :
    Closes S offered codes (a >>= f) w ends' := by
  intro h hl
  obtain ⟨hcalls, hlinkage, hout⟩ := ha h hl
  cases hend : (a h).1 with
  | error e =>
    rw [hend] at hout
    rw [Activity.bind_of_error hend]
    exact ⟨hcalls, hlinkage, herror _ _ hout⟩
  | ok b =>
    rw [hend] at hout
    obtain ⟨hcalls', hlinkage', c, hc, hgood⟩ := hok _ b hout (a h).2 hlinkage
    rw [Activity.bind_of_ok hend, hc]
    exact ⟨(hcalls'.trans (List.append_nil _)).trans hcalls, hlinkage', hgood⟩

/-- **A pair of opening calls around an activity.** -/
theorem within {make enter : Call Float} {close : Option Kind → Call Float} {body : Activity (Outcome β)} {own work : List Step}
    {good : β → Prop} (hmake : closing? make = none) (henter : closing? enter = some close)
    (hfree : ∀ past k, S.refuses past (close k) = none) (hbody : Closes S offered codes body (own ++ work) (Surrounds S own work good)) :
    Closes S offered codes (Activity.calls S [make, enter] >>= fun _ => Activity.closing S close body)
      (.call make :: .call enter :: own ++ work) (Surrounds S (.call make :: .call enter :: own) work good) := by
  intro h hl
  obtain ⟨hcalls, hlinkage, hout⟩ := Runs.calls [make, enter] h hl
  simp only [List.map_cons, List.map_nil] at hcalls hout
  simp only [List.cons_append]
  cases hm : S.refuses h.calls make with
  | some e =>
    -- nothing is open
    rw [progress_call_refused hm] at hcalls hout ⊢
    rw [Activity.bind_of_error hout]
    refine ⟨hcalls.trans (List.append_nil _).symm, hlinkage, ?_⟩
    simp only [Surrounds, progress_call_refused hm]
  | none =>
    rw [progress_call_accepted hm] at hcalls hout ⊢
    cases he : S.refuses (h.calls ++ [make]) enter with
    | some e =>
      rw [progress_call_refused he] at hcalls hout ⊢
      rw [Activity.bind_of_error hout]
      refine ⟨?_, hlinkage, ?_⟩
      · simpa [Progress.made, Progress.closings, hmake] using hcalls
      · simp only [Surrounds, progress_call_accepted hm, progress_call_refused he]
    | none =>
      rw [progress_call_accepted he] at hcalls hout ⊢
      obtain ⟨u, hu, -⟩ := hout
      rw [Activity.bind_of_ok hu]
      obtain ⟨hcalls', hlinkage', hout'⟩ := hbody _ hlinkage
      have hpast : (Activity.calls S [make, enter] h).2.calls = h.calls ++ [make] ++ [enter] := by
        rw [hcalls, List.append_assoc]
        rfl
      rw [hpast] at hcalls' hout'
      -- the closing call comes after those of the body, and is told what ended the body
      rw [Activity.closing_apply hfree, hout'.refusal_eq, Progress.closings_cons_of_none _ hmake,
        Progress.closings_cons_of_some _ henter, hcalls']
      refine ⟨?_, hlinkage', (surrounds_cons hm he).2 hout'⟩
      simp only [Progress.made, List.append_assoc, List.cons_append, List.nil_append]

/-- **What leaves a generator:** its own refusals as generators let them, and else the end of the work. -/
theorem generator {a : Activity (Outcome β)} {own work : List Step} {good : β → Prop}
    (ha : Closes S offered codes a (own ++ work) (Surrounds S own work good)) :
    Closes S offered codes (Activity.generator a) (own ++ work) (Leaves S own work good) := by
  intro h hl
  obtain ⟨hcalls, hlinkage, hout⟩ := ha h hl
  unfold Surrounds at hout
  unfold Leaves Activity.generator
  rcases hrun : a h with ⟨out, h'⟩
  rw [hrun] at hcalls hlinkage hout
  split at hout
  · subst hout
    exact ⟨hcalls, hlinkage, rfl⟩
  · obtain ⟨r, rfl, hr⟩ := hout
    exact ⟨hcalls, hlinkage, hr⟩

end Closes

end MomentProgram
