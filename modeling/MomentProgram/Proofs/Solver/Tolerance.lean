/-
The tolerance of a session as a double.

A tolerance is accepted exactly if its double is finite and its exact value is above zero (`Tolerance.ofValue_iff`), and the solver is handed
the number as it was given. The double itself is above zero unless the number is a quotient or a decimal of up to half the least double, which
rounding takes to zero (`Number.PositiveAs`); the check looks at the exact value and lets it pass.

An activity `Adds` calls of one sort to those before, and activities one after the other do as each of them does (`Adds.bind`). So a session
sets no tolerance but its own, however far it gets (`adds_session`), and a request that adds any call has an accepted one (`exists_resolved`),
which is the override or that of the settings (`Settings.resolve_iff`).

- `session_tolerance`: every session that is opened, on both routes and with every real number.
- `session_tolerance_third`: a third as an override.
- `session_tolerance_vanished`: a quotient above zero that a solver gets as zero.
-/
import Mathlib
import MomentProgram.Proofs.Solver.Population
import MomentProgram.Proofs.Value.Positive

namespace MomentProgram

/-! ## Activities that add calls of one sort -/

/-- **An activity adds calls of one sort** to those before, whatever becomes of it. -/
def Adds (p : Call Float → Prop) {β : Type} (a : Activity β) : Prop :=
  ∀ h : History, ∃ made, (a h).2.calls = h.calls ++ made ∧ ∀ c ∈ made, p c

namespace Adds

variable {p : Call Float → Prop} {β γ : Type} {S : Solver}

theorem of_calls_eq {a : Activity β} (ha : ∀ h, (a h).2.calls = h.calls) : Adds p a :=
  fun h => ⟨[], (ha h).trans (List.append_nil _).symm, fun _ hc => absurd hc List.not_mem_nil⟩

theorem pure (b : β) : Adds p (Pure.pure b) := of_calls_eq fun _ => rfl

theorem lift (r : Outcome β) : Adds p (Activity.lift r) := of_calls_eq fun _ => rfl

theorem record (level : Level) (text : String) : Adds p (Activity.record level text) := of_calls_eq fun _ => rfl

theorem requirePackage (offered : Option Codes) : Adds p (Activity.requirePackage offered) := by
  refine of_calls_eq fun h => ?_
  unfold Activity.requirePackage
  split <;> rfl

theorem call {c : Call Float} (hc : p c) : Adds p (Activity.call S c) := fun _ => ⟨[c], rfl, List.forall_mem_singleton.2 hc⟩

/-- **One activity after the other adds the calls of both.** -/
theorem bind {a : Activity β} {f : β → Activity γ} (ha : Adds p a) (hf : ∀ b, Adds p (f b)) : Adds p (a >>= f) := by
  intro h
  obtain ⟨made, hcalls, hmade⟩ := ha h
  cases hout : (a h).1 with
  | error e =>
    rw [Activity.bind_of_error hout]
    exact ⟨made, hcalls, hmade⟩
  | ok b =>
    obtain ⟨made', hcalls', hmade'⟩ := hf b (a h).2
    rw [Activity.bind_of_ok hout]
    refine ⟨made ++ made', ?_, List.forall_mem_append.2 ⟨hmade, hmade'⟩⟩
    rw [hcalls', hcalls, List.append_assoc]

theorem calls {cs : List (Call Float)} (hcs : ∀ c ∈ cs, p c) : Adds p (Activity.calls S cs) := by
  induction cs with
  | nil => exact Adds.pure ()
  | cons c cs ih =>
    obtain ⟨hc, hcs⟩ := List.forall_mem_cons.1 hcs
    exact (Adds.call hc).bind fun _ => ih hcs

theorem recordAll (level : Level) (ts : List String) : Adds p (Activity.recordAll level ts) := by
  induction ts with
  | nil => exact Adds.pure ()
  | cons t ts ih => exact (Adds.record level t).bind fun _ => ih

theorem attempt {a : Activity β} (ha : Adds p a) : Adds p (Activity.attempt a) := ha

theorem generator {a : Activity (Outcome β)} (ha : Adds p a) : Adds p (Activity.generator a) := by
  intro h
  obtain ⟨made, hcalls, hmade⟩ := ha h
  refine ⟨made, hcalls ▸ ?_, hmade⟩
  unfold Activity.generator
  rcases a h with ⟨_ | _, h'⟩ <;> rfl

/-- a closing call is added whether it is refused or not -/
theorem closing {close : Option Kind → Call Float} {body : Activity (Outcome β)} (hclose : ∀ k, p (close k)) (hbody : Adds p body) :
    Adds p (Activity.closing S close body) := by
  intro h
  obtain ⟨made, hcalls, hmade⟩ := hbody h
  have hlast : (Activity.closing S close body h).2.calls = (body h).2.calls ++ [close (Activity.passing (body h).1)] := by
    rcases hb : body h with ⟨out, h'⟩
    simp only [Activity.closing, Activity.call, hb]
    cases S.refuses h'.calls (close (Activity.passing out)) <;> rfl
  refine ⟨made ++ [close (Activity.passing (body h).1)], ?_, List.forall_mem_append.2 ⟨hmade, List.forall_mem_singleton.2 (hclose _)⟩⟩
  rw [hlast, hcalls, List.append_assoc]

end Adds

/-! ## The one tolerance of a session -/

/-- a call that sets no tolerance but this one -/
def Call.SetsOnly (given : Value) (c : Call Float) : Prop := ∀ v, c = .setTolerance v → v = given

theorem Call.setsOnly_of_describes {given : Value} {c : Call Float} (h : c.describes = true) : c.SetsOnly given := by
  rintro v rfl
  cases h

section Sessions

variable {I : Instance} {S : Solver} {offered : Option Codes} {given : Value}

theorem adds_populate : Adds (Call.SetsOnly given) (I.populate S offered) := by
  refine (Adds.requirePackage offered).bind fun _ => ?_
  rw [handOver_eq]
  exact Adds.calls fun c hc => Call.setsOnly_of_describes (describes_population S.handle I.program c hc)

theorem adds_readArrays : Adds (Call.SetsOnly given) (Instance.readArrays S) :=
  (Adds.call nofun).bind fun _ => (Adds.lift _).bind fun _ => (Adds.call nofun).bind fun _ => (Adds.lift _).bind fun _ =>
    (Adds.call nofun).bind fun _ => (Adds.lift _).bind fun _ => Adds.pure _

theorem adds_optimise : Adds (Call.SetsOnly given) (I.optimise S) := by
  refine (Adds.call nofun).bind fun _ => (Adds.lift _).bind fun b => ?_
  cases b with
  | true => exact Adds.recordAll _ _
  | false => exact Adds.pure ()

theorem adds_answer (codes : Codes) : Adds (Call.SetsOnly given) (I.answer S codes) := by
  have hasked : ∀ c ∈ [Call.summarise, Call.askStatus], Call.SetsOnly given c :=
    List.forall_mem_cons.2 ⟨nofun, List.forall_mem_singleton.2 nofun⟩
  refine adds_optimise.bind fun _ => (Adds.lift _).bind fun elapsed => (Adds.calls hasked).bind fun _ => (Adds.lift _).bind fun status =>
    (Adds.record _ _).bind fun _ => ?_
  split
  · exact adds_readArrays.bind fun _ => Adds.pure _
  · exact Adds.pure _

theorem adds_setUp (t : Tolerance) : Adds (Call.SetsOnly t.given) (I.setUp S t) := by
  have hown : Call.SetsOnly t.given (.setTolerance t.given) := by
    intro v hv
    injection hv with hv
    exact hv.symm
  refine (Adds.record _ _).bind fun _ => (Adds.call hown).bind fun _ => (Adds.lift _).bind fun b => ?_
  cases b with
  | true => exact Adds.call nofun
  | false => exact Adds.pure ()

/-- **A session sets no tolerance but its own,** however far it gets. -/
theorem adds_session {β : Type} {t : Tolerance} {work : Activity β} (hwork : Adds (Call.SetsOnly t.given) work) :
    Adds (Call.SetsOnly t.given) (I.session S offered t work) := by
  have hopening : ∀ make enter : Call Float, make.SetsOnly t.given → enter.SetsOnly t.given →
      Adds (Call.SetsOnly t.given) (Activity.calls S [make, enter]) :=
    fun _ _ hmake henter => Adds.calls (List.forall_mem_cons.2 ⟨hmake, List.forall_mem_singleton.2 henter⟩)
  refine Adds.generator ((Adds.requirePackage offered).bind fun _ => (hopening .makeEnv .enterEnv nofun nofun).bind fun _ => ?_)
  refine (Adds.closing (fun _ => nofun) ?_).bind fun out => ?_
  · exact (hopening .makeTask .enterTask nofun nofun).bind fun _ =>
      Adds.closing (fun _ => nofun) ((adds_setUp t).bind fun _ => hwork.attempt)
  · cases out with
    | ok b => exact (Adds.record _ _).bind fun _ => Adds.pure _
    | error e => exact Adds.pure _

theorem adds_solveRaw {override : Option Value} {t : Tolerance} (hresolve : I.settings.resolve override = .ok t) :
    Adds (Call.SetsOnly t.given) (I.solveRaw S offered override) := by
  refine (Adds.requirePackage offered).bind fun codes => ?_
  rw [hresolve, Activity.lift_ok_bind]
  exact adds_session (adds_populate.bind fun _ => adds_answer codes)

theorem adds_solve {override : Option Value} {t : Tolerance} (hresolve : I.settings.resolve override = .ok t) :
    Adds (Call.SetsOnly t.given) (I.solve S offered override) := by
  refine (adds_solveRaw hresolve).bind fun _ => (Adds.lift _).bind fun s => ?_
  cases s with
  | optimum o => exact (Adds.record _ _).bind fun _ => Adds.pure _
  | failure f => exact Adds.pure _

theorem adds_writeData {override : Option Value} {t : Tolerance} {path : Value} (hresolve : I.settings.resolve override = .ok t) :
    Adds (Call.SetsOnly t.given) (I.writeData S offered path override) := by
  unfold Instance.writeData
  rw [hresolve, Activity.lift_ok_bind]
  refine (Adds.lift _).bind fun text => (adds_session ?_).bind fun _ => (Adds.record _ _).bind fun _ => Adds.pure text
  exact adds_populate.bind fun _ => Adds.call nofun

end Sessions

/-! ## Accepted tolerances -/

/-- **A number is accepted as a tolerance exactly if it is above zero with a finite double,** and it is kept as it was given. -/
theorem Tolerance.ofValue_iff {n : Number} {cell : Option Cell} {t : Tolerance} (hn : n.IsQuantity) :
    Tolerance.ofValue (.number n cell) = .ok t ↔ t.given = .number n cell ∧ n.PositiveAs t.double := by
  rw [Number.positiveAs_iff hn cell]
  constructor
  · intro h
    obtain ⟨x, hx, h⟩ := Outcome.bind_ok.1 h
    dsimp only at h
    split at h
    · cases h
    · next hfinite =>
      obtain ⟨b, hb, h⟩ := Outcome.bind_ok.1 h
      obtain ⟨⟨n', cell'⟩, hextent, hb⟩ := Outcome.bind_ok.1 hb
      cases hextent
      obtain ⟨⟨below, zero⟩, hzero, hb⟩ := Outcome.bind_ok.1 hb
      cases below <;> cases zero <;> cases hb <;> cases h
      exact ⟨rfl, hx, by simpa using hfinite, hzero⟩
  · rintro ⟨hgiven, hx, hfinite, hzero⟩
    have hpositive : (Value.number n cell).notPositive = .ok false :=
      Outcome.bind_ok.2 ⟨(n, cell), rfl, Outcome.bind_ok.2 ⟨_, hzero, rfl⟩⟩
    refine Outcome.bind_ok.2 ⟨t.double, hx, ?_⟩
    dsimp only
    rw [hfinite, hpositive, ← hgiven]
    rfl

/-- the tolerance of a session that is given none would be accepted -/
theorem Tolerance.ofValue_standard : Tolerance.ofValue (.ofFloat 1e-9) = .ok .standard := by
  have hquantity : (Number.float 1e-9).IsQuantity := trivial
  exact (ofValue_iff hquantity).2 ⟨rfl, (Number.positiveAs_iff hquantity none).2 ⟨rfl, by decide +kernel, by decide +kernel⟩⟩

/-- the tolerance of a session is the override, or that of the settings, or the one of a session that is given none -/
theorem Settings.resolve_iff {tolerance logging override : Option Value} {settings : Settings} {t : Tolerance}
    (hsettings : Settings.ofValues tolerance logging = .ok settings) :
    settings.resolve override = .ok t ↔ Tolerance.ofValue ((override.or tolerance).getD (.ofFloat 1e-9)) = .ok t := by
  cases override with
  | some v => exact Iff.rfl
  | none =>
    have hkept : Tolerance.ofValue (tolerance.getD (.ofFloat 1e-9)) = .ok settings.tolerance := by
      cases tolerance with
      | some v =>
        obtain ⟨t, ht, hsettings⟩ := Outcome.bind_ok.1 hsettings
        cases hsettings
        exact ht
      | none =>
        cases hsettings
        exact Tolerance.ofValue_standard
    show Except.ok settings.tolerance = .ok t ↔ Tolerance.ofValue (tolerance.getD (.ofFloat 1e-9)) = .ok t
    rw [hkept]

/-! ## Sessions that are opened -/

/-- the requests that open a session -/
inductive Entry where
  | solve
  | solveRaw
  | writeData (path : Value)

/-- the traces after a request -/
def Entry.run (entry : Entry) (I : Instance) (S : Solver) (offered : Option Codes) (override : Option Value) (h : History) : History :=
  match entry with
  | .solve => (I.solve S offered override h).2
  | .solveRaw => (I.solveRaw S offered override h).2
  | .writeData path => (I.writeData S offered path override h).2

section Opened

variable {entry : Entry} {I : Instance} {S : Solver} {offered : Option Codes} {override : Option Value} {h : History} {t : Tolerance}

/-- **A request that adds calls has an accepted tolerance.** -/
theorem exists_resolved (hopened : (entry.run I S offered override h).calls ≠ h.calls) : ∃ t, I.settings.resolve override = .ok t := by
  cases hresolve : I.settings.resolve override with
  | ok t => exact ⟨t, rfl⟩
  | error e =>
    cases entry with
    | solve => exact absurd (solve_eq.2.trans (solveRaw_of_badTolerance hresolve).1) hopened
    | solveRaw => exact absurd (solveRaw_of_badTolerance hresolve).1 hopened
    | writeData path => exact absurd (writeData_of_refused (.inr (.inl ⟨e, hresolve⟩))).2 hopened

/-- a request sets no tolerance but the one it has -/
theorem Entry.adds_setsOnly (entry : Entry) (h : History) (hresolve : I.settings.resolve override = .ok t) :
    ∃ made, (entry.run I S offered override h).calls = h.calls ++ made ∧ ∀ c ∈ made, c.SetsOnly t.given := by
  cases entry with
  | solve => exact adds_solve hresolve h
  | solveRaw => exact adds_solveRaw hresolve h
  | writeData path => exact adds_writeData hresolve h

/-- a solver that accepts the calls so far gets the tolerance as it was given -/
theorem setTolerance_mem_solveRaw {codes : Codes} (hfree : S.ClosesFreely) (hresolve : I.settings.resolve override = .ok t)
    (haccepts : ∀ past, ∀ c ∈ openingCalls ++ [Call.setTolerance t.given], S.refuses past c = none)
    (hl : h.linkage.resolve offered = .loaded codes) :
    Call.setTolerance t.given ∈ (Entry.solveRaw.run I S offered override h).calls := by
  obtain ⟨hcalls, -, -⟩ := solveRaw_closes hfree hresolve h hl
  have hsteps : I.solveSteps S codes override = (openingCalls ++ [Call.setTolerance t.given]).map Step.call ++
      (.look I.settings.logging.truthy.refusal :: (if I.logs then [.call .attachLog] else []) ++
        ((I.program.population S.handle).map .call ++ I.answerSteps S codes)) := by
    rw [Instance.solveSteps, Instance.openingSteps, Instance.taskSteps, ← Settings.given_of_resolve hresolve, Instance.populationSteps]
    simp
  have hmade : Call.setTolerance t.given ∈ (progress S h.calls (I.solveSteps S codes override)).made := by
    rw [hsteps, progress_map_call haccepts]
    simp [Progress.made]
  rw [Entry.run, hcalls]
  exact List.mem_append_left _ (List.mem_append_right _ hmade)

/-- and so does a solver that accepts every call -/
theorem setTolerance_mem_accepting (hresolve : I.settings.resolve override = .ok t) :
    Call.setTolerance t.given ∈ (Entry.solveRaw.run I acceptingSolver (some []) override ⟨.unresolved, [], []⟩).calls :=
  setTolerance_mem_solveRaw (fun _ _ => ⟨rfl, rfl⟩) hresolve (fun _ _ _ => rfl) rfl

end Opened

/-- **The tolerance of a session.** Let settings be made of a tolerance or of none, and a request be made with an override or without one.
The tolerance in effect is the override, else that of the settings, else the standard one; let it be a number that is no complex one. It is
accepted exactly if it is above zero and its double is finite. If the request opens a session, then it is accepted and the one tolerance that
the solver is told. Its double is above zero as well, unless the number is a quotient or a decimal of up to half the least double: then the
double is zero. -/
theorem session_tolerance (tolerance logging override : Option Value) (settings : Settings)
    (hsettings : Settings.ofValues tolerance logging = .ok settings) (n : Number) (cell : Option Cell)
    (hoffered : (override.or tolerance).getD (.ofFloat 1e-9) = .number n cell) (hn : n.IsQuantity) (program : StatedProgram) (S : Solver)
    (offered : Option Codes) (entry : Entry) (h : History) :
    (∀ t, settings.resolve override = .ok t ↔ t.given = .number n cell ∧ n.PositiveAs t.double) ∧
      ((entry.run ⟨program, settings⟩ S offered override h).calls ≠ h.calls →
        ∃ t made, settings.resolve override = .ok t ∧ n.PositiveAs t.double ∧
          (entry.run ⟨program, settings⟩ S offered override h).calls = h.calls ++ made ∧
            ∀ v, .setTolerance v ∈ made → v = .number n cell) := by
  have haccepted : ∀ t, settings.resolve override = .ok t ↔ t.given = .number n cell ∧ n.PositiveAs t.double := by
    intro t
    rw [Settings.resolve_iff hsettings, hoffered, Tolerance.ofValue_iff hn]
  refine ⟨haccepted, fun hopened => ?_⟩
  obtain ⟨t, hresolve⟩ := exists_resolved hopened
  obtain ⟨hgiven, hpositive⟩ := (haccepted t).1 hresolve
  obtain ⟨made, hcalls, hmade⟩ := entry.adds_setsOnly h hresolve
  exact ⟨t, made, hresolve, hpositive, hcalls, fun v hv => (hmade _ hv v rfl).trans hgiven⟩

/-- a third -/
def third : Value := .number (.ratio 1 3) none

/-- a third as an override: the standard tolerance of the settings does not count, and the double of a third is above zero -/
theorem session_tolerance_third :
    ∃ t made, Settings.standard.resolve (some third) = .ok t ∧ 0.0 < t.double ∧
      (Entry.solveRaw.run ⟨.plain mixedDoubles, .standard⟩ acceptingSolver (some []) (some third) ⟨.unresolved, [], []⟩).calls = made ∧
        made ≠ [] ∧ ∀ v, .setTolerance v ∈ made → v = third := by
  let I : Instance := ⟨.plain mixedDoubles, .standard⟩
  let h : History := ⟨.unresolved, [], []⟩
  obtain ⟨haccepted, hsession⟩ := session_tolerance none none (some third) .standard rfl (.ratio 1 3) none rfl three_pos
    (.plain mixedDoubles) acceptingSolver (some []) .solveRaw h
  -- a third is above zero and more than what vanishes
  obtain ⟨m, hround⟩ : ∃ m, Format.double.round ((1 : ℤ).natAbs * unitsPerOne) 3 = some m :=
    Option.isSome_iff_exists.1 (by decide +kernel)
  have hpositive : (Number.ratio 1 3).PositiveAs (Reading.finite false m).toFloat :=
    Number.positiveAs_ratio Int.one_pos three_pos hround
  have hsmall : vanishing < (Number.ratio 1 3).value := by
    have hunits : (2 : ℚ) ≤ unitsPerOne := Nat.ofNat_le_cast.2 (by decide +kernel)
    rw [Number.value, vanishing]
    generalize (unitsPerOne : ℚ) = u at hunits
    rw [div_lt_div_iff₀ (by linarith) (by norm_num)]
    push_cast
    linarith
  have hresolve := (haccepted ⟨third, _⟩).2 ⟨rfl, hpositive⟩
  have hopened : (Entry.solveRaw.run I acceptingSolver (some []) (some third) h).calls ≠ [] :=
    List.ne_nil_of_mem (setTolerance_mem_accepting (I := I) hresolve)
  obtain ⟨t, made, ht, hpositive, hcalls, hmade⟩ := hsession hopened
  rcases hpositive.rounded with ⟨-, hpos⟩ | ⟨-, hle, -⟩
  · exact ⟨t, made, ht, hpos, hcalls, fun hnone => hopened (hcalls.trans hnone), hmade⟩
  · exact absurd hsmall hle.not_gt

/-- a quotient above zero that is far below every double -/
def tiny : Value := .number (.ratio 1 (Nat.pow 10 400)) none

/-- **A quotient above zero reaches the solver as zero.** Settings accept it, and the session is opened with it. -/
theorem session_tolerance_vanished : ∃ settings, Settings.ofValues (some tiny) none = .ok settings ∧
    .setTolerance tiny ∈
      (Entry.solveRaw.run ⟨.plain mixedDoubles, settings⟩ acceptingSolver (some []) none ⟨.unresolved, [], []⟩).calls ∧
    tiny.toFloat = .ok settings.tolerance.double ∧ ¬ 0.0 < settings.tolerance.double := by
  have hround : Format.double.round ((1 : ℤ).natAbs * unitsPerOne) (Nat.pow 10 400) = some 0 := by decide +kernel
  have hden : 0 < Nat.pow 10 400 := by decide +kernel
  have hpositive : (Number.ratio 1 (Nat.pow 10 400)).PositiveAs (Reading.finite false 0).toFloat :=
    Number.positiveAs_ratio Int.one_pos hden hround
  let settings : Settings := ⟨⟨tiny, (Reading.finite false 0).toFloat⟩, .ofBool true⟩
  have haccepted : Tolerance.ofValue tiny = .ok settings.tolerance :=
    (Tolerance.ofValue_iff (n := .ratio 1 (Nat.pow 10 400)) hden).2 ⟨rfl, hpositive⟩
  have hsettings : Settings.ofValues (some tiny) none = .ok settings := Outcome.bind_ok.2 ⟨settings.tolerance, haccepted, rfl⟩
  have hresolve : settings.resolve none = .ok settings.tolerance := rfl
  exact ⟨settings, hsettings, setTolerance_mem_accepting (I := ⟨.plain mixedDoubles, settings⟩) hresolve, hpositive.conversion, by decide⟩

end MomentProgram
