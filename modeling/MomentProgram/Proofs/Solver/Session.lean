/-
Sessions with the solver open and close in pairs.

The calls of a session can be written down beforehand (`solveWord`, `writeWord`): environment and task are opened, the tolerance is
set, the log attached if the settings say so, the program handed over; then it is optimised and its status asked for, and the arrays
if the status is an optimal one, or it is written to a file. Whatever the solver refuses, a session makes the calls of its word up to
the first refused one, closes the task if that was opened, then the environment if that was opened, and ends with the refusal as it
came. Two things can end it otherwise: what it reads in between may not be readable (`Step.look`), and the end of an iteration that the
solver answers an opening call with leaves the session as a fault of its own (`Fault.outOfGenerator`).

`session_closes` is the step: around any work that opens nothing. `watch` looks at the calls from outside and knows which of them are
in place while nothing, an environment or a task is open. A word is `Neutral` if it leaves open what was open before it, wherever it
ends; work is, and a pair of opening calls around a neutral word is again (`Neutral.within`), so that sessions are. `watchAll_idle`
carries that over to any list of requests, one after the other, by induction on the list.

- `session_discipline`: the order of calls, the closing and the outcome, over all programs, settings, refusals and sequences.
- `session_discipline_refused`: a solver that refuses to optimise.
- `session_otherwise`: an iteration ended by an opening call, an answer that is not readable, and a tolerance put into settings unchecked.
-/
import Mathlib
import MomentProgram.Solver.Session
import MomentProgram.Proofs.Program.Decoded
import MomentProgram.Proofs.Solver.Progress

namespace MomentProgram

/-! ## The words -/

/-- the status of the code that the solver reports -/
def Solver.status (S : Solver) (codes : Codes) : Outcome Status := S.code.bind codes.statusOf

/-- whether the solver reports one of the optimal statuses -/
def Solver.succeeds (S : Solver) (codes : Codes) : Bool :=
  match S.status codes with
  | .ok status => status.isOptimal
  | .error _ => false

/-- the calls that open a session -/
def openingCalls : List (Call Float) := [.makeEnv, .enterEnv, .makeTask, .enterTask]

namespace Instance

variable (I : Instance) (S : Solver)

/-- whether the log is attached -/
def logs : Bool := I.settings.logging.truthy.toOption.getD false

/-- the calls of a session before its work: the tolerance is the override, if there is one, or that of the settings -/
def setupWord (override : Option Value) : List (Call Float) :=
  openingCalls ++ [Call.setTolerance (override.getD I.settings.tolerance.given)] ++ (if I.logs then [Call.attachLog] else []) ++
    I.program.population S.handle

/-- the calls that optimise a program and read the answer -/
def answerWord (codes : Codes) : List (Call Float) :=
  [Call.optimise, Call.summarise, Call.askStatus] ++
    if S.succeeds codes then [Call.askPrimal, Call.askDual, Call.askObjective] else []

/-- the calls that solve a program -/
def solveWord (codes : Codes) (override : Option Value) : List (Call Float) := I.setupWord S override ++ answerWord S codes

/-- the calls that write a program to a file -/
def writeWord (text : String) (override : Option Value) : List (Call Float) := I.setupWord S override ++ [Call.write text]

/-- the steps that set a task up -/
def taskSteps (given : Value) : List Step :=
  .call (.setTolerance given) :: .look I.settings.logging.truthy.refusal :: if I.logs then [.call .attachLog] else []

/-- the steps of a session around its work, up to where the work begins -/
def openingSteps (override : Option Value) : List Step :=
  openingCalls.map .call ++ I.taskSteps (override.getD I.settings.tolerance.given)

/-- the steps that hand the program over -/
def populationSteps : List Step := (I.program.population S.handle).map .call

/-- the steps that read the arrays of an answer -/
def readingSteps : List Step :=
  [.call .askPrimal, .look (Outcome.refusal (S.primal.bind Value.toTensor)),
    .call .askDual, .look (Outcome.refusal (S.dual.bind Value.toTensor)),
    .call .askObjective, .look (Outcome.refusal (S.objective.bind Value.toFloat))]

/-- the steps that optimise a program and read the answer -/
def answerSteps (codes : Codes) : List Step :=
  [Step.call .optimise, Step.look I.settings.logging.truthy.refusal, Step.look (milliseconds S.started S.finished).refusal,
    Step.call .summarise, Step.call .askStatus, Step.look (S.status codes).refusal] ++
    if S.succeeds codes then readingSteps S else []

/-- the steps that solve a program -/
def solveSteps (codes : Codes) (override : Option Value) : List Step :=
  I.openingSteps override ++ (I.populationSteps S ++ I.answerSteps S codes)

/-- the steps that write a program to a file -/
def writeSteps (text : String) (override : Option Value) : List Step :=
  I.openingSteps override ++ (I.populationSteps S ++ [Step.call (.write text)])

end Instance

section Words

variable (I : Instance) (S : Solver)

theorem callsOf_setup (override : Option Value) (w : List Step) :
    callsOf (I.openingSteps override ++ (I.populationSteps S ++ w)) = I.setupWord S override ++ callsOf w := by
  unfold Instance.openingSteps Instance.populationSteps Instance.setupWord Instance.taskSteps
  cases I.logs <;> simp

theorem callsOf_answerSteps (codes : Codes) : callsOf (I.answerSteps S codes) = Instance.answerWord S codes := by
  unfold Instance.answerSteps Instance.answerWord
  cases S.succeeds codes <;> rfl

theorem callsOf_solveSteps (codes : Codes) (override : Option Value) :
    callsOf (I.solveSteps S codes override) = I.solveWord S codes override := by
  rw [Instance.solveSteps, callsOf_setup, callsOf_answerSteps]
  rfl

theorem callsOf_writeSteps (text : String) (override : Option Value) :
    callsOf (I.writeSteps S text override) = I.writeWord S text override := by
  rw [Instance.writeSteps, callsOf_setup]
  rfl

variable {I S}

/-- calls are no looks -/
theorem looks_map_call (cs : List (Call Float)) : ∀ r, Step.look r ∈ cs.map Step.call → r = none := by
  intro r hr
  obtain ⟨c, -, hc⟩ := List.mem_map.1 hr
  cases hc

/-- no look of an opening fails if the flag of the log can be read -/
theorem looks_openingSteps {override : Option Value} {b : Bool} (hlogging : I.settings.logging.truthy = .ok b) :
    ∀ r, Step.look r ∈ I.openingSteps override → r = none := by
  intro r hr
  rcases List.mem_append.1 hr with hr | hr
  · exact looks_map_call _ r hr
  · rw [Instance.taskSteps, hlogging] at hr
    cases hlogs : I.logs <;> simpa [hlogs, Outcome.refusal] using hr

end Words

/-! ## Work inside a session -/

/-- a call that belongs to the task of a session, and neither opens nor closes anything -/
def Call.isWork : Call Float → Bool
  | .makeEnv | .enterEnv | .makeTask | .enterTask | .closeTask _ | .closeEnv _ => false
  | _ => true

theorem closing?_of_isWork {c : Call Float} (h : c.isWork = true) : closing? c = none := by
  cases c <;> first | rfl | cases h

/-- a call that hands over a part of a program -/
def Call.describes : Call Float → Bool
  | .appendRows _ | .appendBlock _ | .putOffset _ | .minimise | .appendMatrix _ _ | .putObjective _ _ | .putBound _ _ _ | .putRow _ _ _ => true
  | _ => false

theorem Call.isWork_of_describes {c : Call Float} (h : c.describes = true) : c.isWork = true := by
  cases c <;> first | rfl | cases h

/-- a population is made of the parts of a program -/
theorem describes_populationOf (handle : Nat → Int) (dim : Value) (offset : Float) (fixed : List (Triple Float))
    (constraints : List (List (Triple Float))) (bounds : List Float) :
    ∀ c ∈ populationOf handle dim offset fixed constraints bounds, c.describes = true := by
  have hbounds : ∀ (i : Nat), ∀ c ∈ boundCalls i bounds, c.describes = true := by
    induction bounds with
    | nil => intro i c hc; cases hc
    | cons b bs ih =>
      intro i
      exact List.forall_mem_cons.2 ⟨rfl, ih (i + 1)⟩
  have hrows : ∀ (i : Nat), ∀ c ∈ rowCalls handle dim i constraints, c.describes = true := by
    induction constraints with
    | nil => intro i c hc; cases hc
    | cons ts rest ih =>
      intro i
      exact List.forall_mem_cons.2 ⟨rfl, List.forall_mem_cons.2 ⟨rfl, ih (i + 1)⟩⟩
  refine List.forall_mem_append.2 ⟨List.forall_mem_append.2 ⟨?_, hbounds 0⟩, hrows 0⟩
  intro c hc
  simp only [preamble, List.mem_cons, List.not_mem_nil, or_false] at hc
  rcases hc with rfl | rfl | rfl | rfl | rfl | rfl <;> rfl

theorem describes_population (handle : Nat → Int) (P : StatedProgram) : ∀ c ∈ P.population handle, c.describes = true := by
  cases P with
  | plain P => exact describes_populationOf handle _ _ _ _ _
  | loose P => exact describes_populationOf handle _ _ _ _ _

/-- the calls that hand a program over are work -/
theorem isWork_population (handle : Nat → Int) (P : StatedProgram) : ∀ c ∈ P.population handle, c.isWork = true :=
  fun c hc => Call.isWork_of_describes (describes_population handle P c hc)

theorem isWork_taskSteps (I : Instance) (given : Value) : ∀ c ∈ callsOf (I.taskSteps given), c.isWork = true := by
  unfold Instance.taskSteps
  cases I.logs <;> simp [Call.isWork]

theorem isWork_populationSteps (I : Instance) (S : Solver) : ∀ c ∈ callsOf (I.populationSteps S), c.isWork = true := by
  rw [Instance.populationSteps, callsOf_map_call]
  exact isWork_population S.handle I.program

theorem isWork_answerSteps (I : Instance) (S : Solver) (codes : Codes) :
    ∀ c ∈ callsOf (I.answerSteps S codes), c.isWork = true := by
  rw [callsOf_answerSteps, Instance.answerWord]
  cases S.succeeds codes <;> simp [Call.isWork]

/-- a word of opening calls, and behind them of work -/
def IsSession (word : List Step) : Prop := ∃ w, word = openingCalls.map .call ++ w ∧ ∀ c ∈ callsOf w, c.isWork = true

/-- a session is opened and set up before its work -/
theorem isSession_of_work (I : Instance) (override : Option Value) {w : List Step} (hw : ∀ c ∈ callsOf w, c.isWork = true) :
    IsSession (I.openingSteps override ++ w) := by
  refine ⟨_, List.append_assoc _ _ _, ?_⟩
  rw [callsOf_append]
  exact List.forall_mem_append.2 ⟨isWork_taskSteps I _, hw⟩

/-- the work of solving -/
theorem isWork_solving (I : Instance) (S : Solver) (codes : Codes) :
    ∀ c ∈ callsOf (I.populationSteps S ++ I.answerSteps S codes), c.isWork = true := by
  rw [callsOf_append]
  exact List.forall_mem_append.2 ⟨isWork_populationSteps I S, isWork_answerSteps I S codes⟩

theorem isSession_solveSteps (I : Instance) (S : Solver) (codes : Codes) (override : Option Value) : IsSession (I.solveSteps S codes override) :=
  isSession_of_work I override (isWork_solving I S codes)

/-- the work of writing -/
theorem isWork_writing (I : Instance) (S : Solver) (text : String) :
    ∀ c ∈ callsOf (I.populationSteps S ++ [Step.call (.write text)]), c.isWork = true := by
  rw [callsOf_append]
  exact List.forall_mem_append.2 ⟨isWork_populationSteps I S, List.forall_mem_singleton.2 rfl⟩

theorem isSession_writeSteps (I : Instance) (S : Solver) (text : String) (override : Option Value) : IsSession (I.writeSteps S text override) :=
  isSession_of_work I override (isWork_writing I S text)

/-! ## What a session runs -/

/-- what is read of an answer: the status of the code, and the arrays with an optimal status alone -/
def Solver.Reports (S : Solver) (codes : Codes) (a : RawAnswer) : Prop :=
  S.status codes = .ok a.status ∧
    if a.status.isOptimal then
      ∃ x y p, a.arrays = some (x, y, p) ∧ S.primal.bind Value.toTensor = .ok x ∧ S.dual.bind Value.toTensor = .ok y ∧
        S.objective.bind Value.toFloat = .ok p
    else a.arrays = none

section Runs

variable {I : Instance} {S : Solver} {offered : Option Codes} {codes : Codes}

/-- the log is attached if the flag of the settings holds -/
theorem Instance.logs_of_ok {b : Bool} (h : I.settings.logging.truthy = .ok b) : I.logs = b := by
  rw [Instance.logs, h]
  rfl

/-- calls one after the other are the calls of the first part and then those of the second -/
theorem Activity.calls_append (cs cs' : List (Call Float)) :
    Activity.calls S (cs ++ cs') = Activity.calls S cs >>= fun _ => Activity.calls S cs' := by
  induction cs with
  | nil => rfl
  | cons c cs ih =>
    rw [List.cons_append, Activity.calls, Activity.calls, ih, Activity.bind_assoc]

/-- the matrices of the rows are handed over by their handles in the order of arrival -/
theorem handOverRows_eq (dim : Value) (i : ℕ) (As : List StatedMatrix) :
    Instance.handOverRows S dim i As = Activity.calls S (rowCalls S.handle dim i (As.map StatedMatrix.triples)) := by
  induction As generalizing i with
  | nil => rfl
  | cons A As ih =>
    rw [Instance.handOverRows, ih, Activity.appendMatrix, Activity.bind_assoc]
    rfl

/-- **Handing a program over makes the calls of its population,** each matrix put by the handle that the solver answered with. -/
theorem handOver_eq (P : StatedProgram) : Instance.handOver S P.parts = Activity.calls S (P.population S.handle) := by
  have hparts : P.population S.handle =
      populationOf S.handle P.parts.dim P.parts.offset P.parts.fixed.triples (P.parts.constraints.map StatedMatrix.triples)
        P.parts.bounds := by
    cases P with
    | loose P => rfl
    | plain P => rw [StatedProgram.parts, List.map_map]; rfl
  rw [hparts, Instance.handOver, populationOf, Activity.calls_append, Activity.calls_append, ← handOverRows_eq, preamble,
    List.length_map, Activity.appendMatrix]
  simp only [Activity.calls, Activity.bind_assoc]
  rfl

theorem runs_populate : Runs S offered codes (I.populate S offered) (I.populationSteps S) fun _ => True := by
  refine Runs.requirePackage.bind (w := []) fun _ _ => ?_
  rw [handOver_eq]
  exact Runs.calls _

theorem runs_optimise :
    Runs S offered codes (I.optimise S) [.call .optimise, .look I.settings.logging.truthy.refusal] fun _ => True := by
  refine (Runs.call .optimise).bind fun _ _ => (Runs.lift I.settings.logging.truthy).bind (v := []) fun b _ => ?_
  cases b with
  | true => exact Runs.recordAll _ _
  | false => exact Runs.pure trivial

theorem runs_readArrays : Runs S offered codes (Instance.readArrays S) (Instance.readingSteps S) fun a =>
    S.primal.bind Value.toTensor = .ok a.1 ∧ S.dual.bind Value.toTensor = .ok a.2.1 ∧ S.objective.bind Value.toFloat = .ok a.2.2 :=
  (Runs.call .askPrimal).bind fun _ _ => (Runs.lift _).bind fun _ hx => (Runs.call .askDual).bind fun _ _ =>
    (Runs.lift _).bind fun _ hy => (Runs.call .askObjective).bind fun _ _ => (Runs.lift _).bind fun _ hp => Runs.pure ⟨hx, hy, hp⟩

theorem runs_answer : Runs S offered codes (I.answer S codes) (I.answerSteps S codes) (S.Reports codes) := by
  refine runs_optimise.bind fun _ _ => (Runs.lift (Instance.milliseconds S.started S.finished)).bind fun _ _ =>
    (Runs.calls [.summarise, .askStatus]).bind fun _ _ => (Runs.lift (S.status codes)).bind fun status hstatus =>
    (Runs.record _ _).bind (w := []) fun _ _ => ?_
  have hsucceeds : S.succeeds codes = status.isOptimal := by rw [Solver.succeeds, hstatus]
  rw [hsucceeds]
  cases hoptimal : status.isOptimal with
  | true =>
    refine runs_readArrays.bind (v := []) fun a ha => Runs.pure ⟨hstatus, ?_⟩
    rw [if_pos hoptimal]
    exact ⟨a.1, a.2.1, a.2.2, rfl, ha⟩
  | false =>
    refine Runs.pure ⟨hstatus, ?_⟩
    rw [hoptimal]
    rfl

theorem runs_setUp (t : Tolerance) : Runs S offered codes (I.setUp S t) (I.taskSteps t.given) fun _ => True := by
  refine (Runs.record _ _).bind (w := []) fun _ _ => (Runs.call _).bind (w := [_]) fun _ _ =>
    (Runs.lift I.settings.logging.truthy).bind (w := [_]) fun b hb => ?_
  rw [Instance.logs_of_ok hb]
  cases b with
  | true => exact Runs.call .attachLog
  | false => exact Runs.pure trivial

/-- **A session around some work** runs the opening calls, the setting up and the work, and closes what it opened. -/
theorem session_closes {β : Type} {t : Tolerance} {work : Activity β} {w : List Step} {good : β → Prop} (hfree : S.ClosesFreely)
    (hwork : Runs S offered codes work w good) (hw : ∀ c ∈ callsOf w, c.isWork = true) :
    Closes S offered codes (I.session S offered t work) (openingCalls.map .call ++ I.taskSteps t.given ++ w)
      (Leaves S (openingCalls.map .call ++ I.taskSteps t.given) w good) := by
  have hbody : Closes S offered codes (I.setUp S t >>= fun _ => Activity.attempt work) (I.taskSteps t.given ++ w)
      (Surrounds S (I.taskSteps t.given) w good) :=
    Closes.of_runs (runs_setUp t) hwork (fun c hc => closing?_of_isWork (isWork_taskSteps I t.given c hc))
      fun c hc => closing?_of_isWork (hw c hc)
  have htask := Closes.within (show closing? .makeTask = none from rfl) (show closing? .enterTask = some .closeTask from rfl)
    (fun past k => (hfree past k).1) hbody
  have henv := Closes.within (show closing? .makeEnv = none from rfl) (show closing? .enterEnv = some .closeEnv from rfl)
    (fun past k => (hfree past k).2) htask
  refine Closes.generator (Closes.after Runs.requirePackage fun _ _ => ?_)
  rw [← Activity.bind_assoc]
  refine Closes.followed henv (fun _ _ he => he) fun past out hout => ?_
  cases out with
  | ok b => exact (Runs.record _ _).bind (w := []) (v := []) fun _ _ => Runs.pure hout
  | error e => exact Runs.pure hout

/-- a tolerance is handed over as it was given -/
theorem Tolerance.given_of_ofValue {v : Value} {t : Tolerance} (h : Tolerance.ofValue v = .ok t) : t.given = v := by
  -- every check may refuse the value, and none changes it
  have hchecked : ∀ {x : Outcome Float} {b : Outcome Bool}, (do
      let x ← x
      if !isFiniteDouble x then throw Fault.badTolerance
      if ← b then throw Fault.badTolerance
      return (⟨v, x⟩ : Tolerance)) = .ok t → t.given = v := by
    intro x b h
    obtain ⟨x, -, h⟩ := Outcome.bind_ok.1 h
    dsimp only at h
    split at h
    · cases h
    · obtain ⟨b, -, h⟩ := Outcome.bind_ok.1 h
      cases b <;> cases h
      rfl
  unfold Tolerance.ofValue at h
  split at h
  · exact hchecked h
  · exact hchecked h
  · exact hchecked h
  · cases h

theorem Settings.given_of_resolve {s : Settings} {override : Option Value} {t : Tolerance} (h : s.resolve override = .ok t) :
    t.given = override.getD s.tolerance.given := by
  cases override with
  | none => cases h; rfl
  | some v => exact Tolerance.given_of_ofValue h

/-- settings refuse to be made of what would be refused as an override -/
theorem Settings.refused_iff {s : Settings} {v : Value} {logging : Option Value} :
    (∃ e, Settings.ofValues (some v) logging = .error e) ↔ ∃ e, s.resolve (some v) = .error e :=
  Outcome.map_refused (x := Tolerance.ofValue v)

theorem solveRaw_closes {override : Option Value} {t : Tolerance} (hfree : S.ClosesFreely)
    (hresolve : I.settings.resolve override = .ok t) :
    Closes S offered codes (I.solveRaw S offered override) (I.solveSteps S codes override)
      (Leaves S (I.openingSteps override) (I.populationSteps S ++ I.answerSteps S codes) (S.Reports codes)) := by
  refine Closes.after Runs.requirePackage fun codes' hcodes => ?_
  rw [hcodes, hresolve, Activity.lift_ok_bind, Instance.solveSteps, Instance.openingSteps, ← Settings.given_of_resolve hresolve]
  exact session_closes hfree (runs_populate.bind fun _ _ => runs_answer) (isWork_solving I S codes)

theorem writeData_closes {override : Option Value} {t : Tolerance} {path : Value} {text : String} (hfree : S.ClosesFreely)
    (hresolve : I.settings.resolve override = .ok t) (hpath : Instance.writtenPath path = .ok text) :
    Closes S offered codes (I.writeData S offered path override) (I.writeSteps S text override)
      (Leaves S (I.openingSteps override) (I.populationSteps S ++ [Step.call (.write text)]) (· = text)) := by
  unfold Instance.writeData
  rw [hresolve, Activity.lift_ok_bind, hpath, Activity.lift_ok_bind, Instance.writeSteps, Instance.openingSteps,
    ← Settings.given_of_resolve hresolve]
  refine Closes.followed (session_closes hfree (runs_populate.bind fun _ _ => Runs.call (.write text)) (isWork_writing I S text))
    (fun past e he => he.map (fun e' h => congrArg Except.error (Except.error.inj h)) fun _ h => nomatch h) fun past b hb => ?_
  refine (Runs.record _ _).bind (v := []) fun _ _ => Runs.pure ?_
  exact hb.map (fun _ h => nomatch h) fun _ _ _ => ⟨text, rfl, rfl⟩

end Runs

/-! ## Nothing stays open -/

/-- what is open -/
inductive Stage where
  | idle
  | environment
  | task

/-- what is open after a call, if the call is in place: opening calls count once they are accepted -/
def Stage.next (accepted : Bool) : Stage → Call Float → Option Stage
  | .idle, .makeEnv => some .idle
  | .idle, .enterEnv => some (if accepted then .environment else .idle)
  | .environment, .makeTask => some .environment
  | .environment, .enterTask => some (if accepted then .task else .environment)
  | .environment, .closeEnv _ => some .idle
  | .task, .closeTask _ => some .environment
  | .task, c => if c.isWork then some .task else none
  | _, _ => none

/-- follows calls on a solver; nothing is left to say once a call is out of place -/
def watch (S : Solver) : List (Call Float) → Stage → List (Call Float) → Option Stage
  | _, stage, [] => some stage
  | past, stage, c :: cs => match stage.next (S.refuses past c).isNone c with
    | some stage' => watch S (past ++ [c]) stage' cs
    | none => none

/-- whether a call opens a task -/
def Call.opensTask : Call Float → Bool
  | .enterTask => true
  | _ => false

/-- whether a call opens an environment -/
def Call.opensEnv : Call Float → Bool
  | .enterEnv => true
  | _ => false

/-- the closing calls of a session in which some calls were accepted: the task if it was opened, then the environment if it was -/
def released (accepted : List (Call Float)) (passing : Option Kind) : List (Call Float) :=
  (if accepted.any Call.opensTask then [.closeTask passing] else []) ++
    if accepted.any Call.opensEnv then [.closeEnv passing] else []

section Watch

variable {S : Solver} {w : List Step}

theorem watch_cons {past : List (Call Float)} {stage stage' : Stage} {c : Call Float} (cs : List (Call Float))
    (h : stage.next (S.refuses past c).isNone c = some stage') :
    watch S past stage (c :: cs) = watch S (past ++ [c]) stage' cs := by
  rw [watch, h]

/-- the second of two lists of calls is followed from where the first one leads -/
theorem watch_append (past cs rest : List (Call Float)) (stage : Stage) :
    watch S past stage (cs ++ rest) = (watch S past stage cs).bind fun stage' => watch S (past ++ cs) stage' rest := by
  induction cs generalizing past stage with
  | nil => rw [List.nil_append, List.append_nil]; rfl
  | cons c cs ih =>
    rw [List.cons_append, watch, watch, List.append_cons past c cs]
    cases stage.next (S.refuses past c).isNone c with
    | none => rfl
    | some stage' => exact ih (past ++ [c]) stage'

/-- one more closing call, if it is in place -/
theorem watch_concat {past made closings : List (Call Float)} {stage inner outer : Stage} {c : Call Float}
    (h : watch S past stage (made ++ closings) = some inner) (hc : ∀ accepted, inner.next accepted c = some outer) :
    watch S past stage (made ++ (closings ++ [c])) = some outer := by
  rw [← List.append_assoc, watch_append, h, Option.bind_some, watch_cons [] (hc _)]
  rfl

theorem Stage.next_task {c : Call Float} (accepted : Bool) (h : c.isWork = true) : Stage.next accepted .task c = some .task := by
  cases c <;> first | rfl | cases h

/-- work leaves the task open -/
theorem watch_work {past cs : List (Call Float)} (hcs : ∀ c ∈ cs, c.isWork = true) : watch S past .task cs = some .task := by
  induction cs generalizing past with
  | nil => rfl
  | cons c cs ih =>
    obtain ⟨hc, hcs⟩ := List.forall_mem_cons.1 hcs
    rw [watch_cons cs (Stage.next_task _ hc)]
    exact ih hcs

/-- a word that leaves open what was open before, wherever it ends, once what it opened is closed -/
def Neutral (S : Solver) (stage : Stage) (w : List Step) : Prop :=
  ∀ past, watch S past stage ((progress S past w).made ++ (progress S past w).closings) = some stage

theorem neutral_work (hw : ∀ c ∈ callsOf w, c.isWork = true) : Neutral S .task w := by
  intro past
  have hclosings : (progress S past w).closings = [] := by
    rw [Progress.closings, List.filterMap_eq_nil_iff.2 fun c hc => closing?_of_isWork (hw c (accepted_subset S past w c hc))]
    rfl
  rw [hclosings, List.append_nil]
  exact watch_work fun c hc => hw c ((made_begins S past w).1.subset hc)

/-- **A pair of opening calls around a word,** and the closing call behind it. -/
theorem Neutral.within {outer inner : Stage} {make enter : Call Float} {close : Option Kind → Call Float}
    (hmake : closing? make = none) (henter : closing? enter = some close) (hnext : ∀ accepted, outer.next accepted make = some outer)
    (hopen : ∀ accepted, outer.next accepted enter = some (if accepted then inner else outer))
    (hclose : ∀ accepted k, inner.next accepted (close k) = some outer) (hw : Neutral S inner w) :
    Neutral S outer (.call make :: .call enter :: w) := by
  intro past
  cases hm : S.refuses past make with
  | some e =>
    rw [progress_call_refused hm]
    exact watch_cons [] (hnext _)
  | none =>
  rw [progress_call_accepted hm, Progress.closings_cons_of_none _ hmake]
  refine (watch_cons _ (hnext _)).trans ?_
  cases he : S.refuses (past ++ [make]) enter with
  | some e =>
    have hrefused : outer.next (S.refuses (past ++ [make]) enter).isNone enter = some outer := by
      rw [hopen, he]
      rfl
    rw [progress_call_refused he]
    exact watch_cons [] hrefused
  | none =>
    have haccepted : outer.next (S.refuses (past ++ [make]) enter).isNone enter = some inner := by
      rw [hopen, he]
      rfl
    rw [progress_call_accepted he, Progress.closings_cons_of_some _ henter]
    refine (watch_cons _ haccepted).trans ?_
    exact watch_concat (hw (past ++ [make] ++ [enter])) fun _ => hclose _ _

/-- **A session leaves nothing open,** and nothing in it is called out of place. -/
theorem neutral_session (hw : IsSession w) : Neutral S .idle w := by
  obtain ⟨work, rfl, hwork⟩ := hw
  have htask : Neutral S .environment (.call .makeTask :: .call .enterTask :: work) :=
    (neutral_work hwork).within rfl rfl (fun _ => rfl) (fun _ => rfl) fun _ _ => rfl
  exact htask.within rfl rfl (fun _ => rfl) (fun _ => rfl) fun _ _ => rfl

/-- what the calls of a session ask to be closed, however far they go -/
theorem closing?_of_begins {cs work : List (Call Float)} (hbegins : cs <+: openingCalls ++ work)
    (hwork : ∀ c ∈ work, c.isWork = true) :
    cs.filterMap closing? =
      (if cs.any Call.opensEnv then [Call.closeEnv] else []) ++ if cs.any Call.opensTask then [Call.closeTask] else [] := by
  obtain ⟨rest, hrest⟩ := hbegins
  rcases List.append_eq_append_iff.1 hrest with ⟨missing, hopening, -⟩ | ⟨done, rfl, rfl⟩
  · have hcs : cs ∈ openingCalls.inits := (List.mem_inits cs openingCalls).2 ⟨missing, hopening.symm⟩
    simp only [openingCalls, List.inits, List.map_cons, List.map_nil, List.mem_cons, List.not_mem_nil, or_false] at hcs
    rcases hcs with rfl | rfl | rfl | rfl | rfl <;> rfl
  · have hnone : done.filterMap closing? = [] :=
      List.filterMap_eq_nil_iff.2 fun c hc => closing?_of_isWork (hwork c (List.mem_append_left rest hc))
    rw [List.filterMap_append, hnone]
    rfl

/-- the closing calls of a session, by what was accepted -/
theorem closings_session (past : List (Call Float)) (hw : IsSession w) :
    (progress S past w).closings = released (progress S past w).accepted ((progress S past w).refusal.map Fault.kind) := by
  have hbegins := (List.prefix_append _ _).trans (made_begins S past w).1
  obtain ⟨work, rfl, hwork⟩ := hw
  rw [callsOf_append, callsOf_map_call] at hbegins
  rw [Progress.closings, closing?_of_begins hbegins hwork, released]
  split <;> split <;> rfl

end Watch

/-- how a run of a session with a word of calls goes, if it gets so far -/
structure Disciplined (S : Solver) (past word : List (Call Float)) (opening p : Progress) {β : Type} (run : Outcome β × History) :
    Prop where
  /-- the calls of the word as far as they go, and then the closing calls of what was opened -/
  calls : run.2.calls = past ++ p.made ++ released p.accepted (p.refusal.map Fault.kind)
  begun : p.made <+: word
  /-- the whole word, if nothing fails -/
  complete : p.refusal = none → p.made = word
  /-- every call is accepted but the last one, and that ends the word if it is refused -/
  accepted : ∀ before c rest, p.accepted = before ++ c :: rest → S.refuses (past ++ before) c = none
  cut : ∀ c, p.refused = some c → ∃ e, S.refuses (past ++ p.accepted) c = some e ∧ p.refusal = some e
  /-- what ended the work is the outcome as it came; what ended the opening leaves a generator -/
  outcome : ∀ e, p.refusal = some e → run.1 = .error (if opening.refusal.isSome then e.outOfGenerator else e)
  /-- there is a result if nothing fails -/
  result : p.refusal = none → ∃ b, run.1 = .ok b

/-- every accepted call was accepted after the ones before it, and a refused call ends the word -/
theorem progress_cut (S : Solver) (past : List (Call Float)) (w : List Step) :
    (∀ before c rest, (progress S past w).accepted = before ++ c :: rest → S.refuses (past ++ before) c = none) ∧
      ∀ c, (progress S past w).refused = some c →
        ∃ e, S.refuses (past ++ (progress S past w).accepted) c = some e ∧ (progress S past w).refusal = some e := by
  induction w generalizing past with
  | nil => exact ⟨fun before c rest h => by simp at h, fun c h => by cases h⟩
  | cons s w ih =>
    match s with
    | .look none => exact ih past
    | .look (some e) => exact ⟨fun before c rest h => by simp at h, fun c h => by cases h⟩
    | .call d =>
      cases hd : S.refuses past d with
      | some e =>
        rw [progress_call_refused hd]
        refine ⟨fun before c rest h => by simp at h, fun c h => ?_⟩
        cases h
        exact ⟨e, by rwa [List.append_nil], rfl⟩
      | none =>
        rw [progress_call_accepted hd]
        obtain ⟨haccepted, hcut⟩ := ih (past ++ [d])
        refine ⟨fun before c rest h => ?_, fun c h => ?_⟩
        · cases before with
          | nil =>
            obtain ⟨rfl, -⟩ := List.cons_eq_cons.1 h
            rwa [List.append_nil]
          | cons b before =>
            obtain ⟨rfl, hrest⟩ := List.cons_eq_cons.1 h
            rw [List.append_cons past d before]
            exact haccepted before c rest hrest
        · obtain ⟨e, he, hrefusal⟩ := hcut c h
          exact ⟨e, by rwa [List.append_cons past d], hrefusal⟩

/-- an activity that closes a session is disciplined -/
theorem Closes.disciplined {S : Solver} {offered : Option Codes} {codes : Codes} {β : Type} {a : Activity β} {own work : List Step}
    {good : β → Prop} {h : History} (ha : Closes S offered codes a (own ++ work) (Leaves S own work good)) (hw : IsSession (own ++ work))
    (hl : h.linkage.resolve offered = .loaded codes) :
    Disciplined S h.calls (callsOf (own ++ work)) (progress S h.calls own) (progress S h.calls (own ++ work)) (a h) := by
  obtain ⟨hcalls, -, hout⟩ := ha h hl
  obtain ⟨hbegins, hall⟩ := made_begins S h.calls (own ++ work)
  obtain ⟨haccepted, hcut⟩ := progress_cut S h.calls (own ++ work)
  rw [closings_session h.calls hw] at hcalls
  refine ⟨hcalls, hbegins, hall, haccepted, hcut, fun e he => ?_, fun hnone => ?_⟩
  · cases hown : (progress S h.calls own).refusal with
    | some e' =>
      -- the word ends where its opening does
      rw [progress_append, hown] at he
      obtain rfl : e' = e := Option.some.inj (hown.symm.trans he)
      simp only [Leaves, hown] at hout
      exact hout
    | none =>
      simp only [Leaves, hown, Progress.Yields, he] at hout
      exact hout
  · cases hown : (progress S h.calls own).refusal with
    | some e' =>
      rw [progress_append, hown] at hnone
      cases hown.symm.trans hnone
    | none =>
      simp only [Leaves, hown, Progress.Yields, hnone] at hout
      obtain ⟨b, hb, -⟩ := hout
      exact ⟨b, hb⟩

/-! ## One request after the other -/

/-- a request to solve a program, or to write it to a file if there is a path -/
structure Request where
  inst : Instance
  solver : Solver
  offered : Option Codes
  override : Option Value
  path : Option Value

/-- the traces after a request -/
def Request.run (r : Request) (h : History) : History :=
  match r.path with
  | none => (r.inst.solve r.solver r.offered r.override h).2
  | some path => (r.inst.writeData r.solver r.offered path r.override h).2

/-- follows the calls of requests, one after the other -/
def watchAll : List Request → History → Stage → Option Stage
  | [], _, stage => some stage
  | r :: rs, h, stage => match watch r.solver h.calls stage ((r.run h).calls.drop h.calls.length) with
    | some stage' => watchAll rs (r.run h) stage'
    | none => none

section Requests

variable {I : Instance} {S : Solver} {offered : Option Codes} {override : Option Value} {h : History}

/-- the meaning of an answer is found without further calls -/
theorem solve_eq : (I.solve S offered override h).1 = (I.solveRaw S offered override h).1.bind I.decoded ∧
    (I.solve S offered override h).2.calls = (I.solveRaw S offered override h).2.calls := by
  unfold Instance.solve
  cases hraw : (I.solveRaw S offered override h).1 with
  | error e =>
    rw [Activity.bind_of_error hraw]
    exact ⟨rfl, rfl⟩
  | ok a =>
    rw [Activity.bind_of_ok hraw]
    cases hdecoded : I.decoded a with
    | error e => exact ⟨hdecoded.symm, rfl⟩
    | ok s =>
      rw [Activity.lift_ok_bind]
      cases s <;> exact ⟨hdecoded.symm, rfl⟩

theorem requirePackage_of_missing (hl : ∀ codes, h.linkage.resolve offered ≠ .loaded codes) :
    (Activity.requirePackage offered h).1 = .error .packageMissing ∧ (Activity.requirePackage offered h).2.calls = h.calls := by
  unfold Activity.requirePackage
  split
  · next codes hcodes => exact absurd hcodes (hl codes)
  · exact ⟨rfl, rfl⟩

/-- without a package nothing is solved, and nothing opened -/
theorem solveRaw_of_missing (hl : ∀ codes, h.linkage.resolve offered ≠ .loaded codes) :
    (I.solveRaw S offered override h).1 = .error .packageMissing ∧ (I.solveRaw S offered override h).2.calls = h.calls := by
  obtain ⟨hout, hcalls⟩ := requirePackage_of_missing hl
  rw [Instance.solveRaw, Activity.bind_of_error hout]
  exact ⟨rfl, hcalls⟩

/-- a refused tolerance is found before anything is opened -/
theorem solveRaw_of_badTolerance {e : Fault} (hresolve : I.settings.resolve override = .error e) :
    (I.solveRaw S offered override h).2.calls = h.calls ∧
      ∀ codes, h.linkage.resolve offered = .loaded codes → (I.solveRaw S offered override h).1 = .error e := by
  by_cases hl : ∃ codes, h.linkage.resolve offered = .loaded codes
  · obtain ⟨codes, hl⟩ := hl
    obtain ⟨hcalls, -, codes', hcodes', -⟩ := Runs.requirePackage (S := S) h hl
    rw [Instance.solveRaw, Activity.bind_of_ok hcodes', hresolve]
    exact ⟨hcalls.trans (List.append_nil _), fun _ _ => rfl⟩
  · have hmissing : ∀ codes, h.linkage.resolve offered ≠ .loaded codes := fun codes hc => hl ⟨codes, hc⟩
    exact ⟨(solveRaw_of_missing hmissing).2, fun codes hc => absurd hc (hmissing codes)⟩

/-- without a package, a tolerance or a path nothing is written, and nothing opened -/
theorem writeData_of_refused {path : Value}
    (hrefused : (∀ codes, h.linkage.resolve offered ≠ .loaded codes) ∨ (∃ e, I.settings.resolve override = .error e) ∨
      ∃ e, Instance.writtenPath path = .error e) :
    (∃ e, (I.writeData S offered path override h).1 = .error e) ∧ (I.writeData S offered path override h).2.calls = h.calls := by
  unfold Instance.writeData
  cases hresolve : I.settings.resolve override with
  | error e => exact ⟨⟨e, rfl⟩, rfl⟩
  | ok t =>
  rw [Activity.lift_ok_bind]
  cases hpath : Instance.writtenPath path with
  | error e => exact ⟨⟨e, rfl⟩, rfl⟩
  | ok text =>
  rw [Activity.lift_ok_bind]
  have hmissing : ∀ codes, h.linkage.resolve offered ≠ .loaded codes := by
    rcases hrefused with hl | ⟨e, he⟩ | ⟨e, he⟩
    · exact hl
    · rw [hresolve] at he; cases he
    · rw [hpath] at he; cases he
  obtain ⟨hout, hcalls⟩ := requirePackage_of_missing hmissing
  have hsession : ∀ work : Activity Unit,
      I.session S offered t work h = (.error .packageMissing, (Activity.requirePackage offered h).2) := by
    intro work
    have haround : I.around S offered t work h = (.error .packageMissing, (Activity.requirePackage offered h).2) :=
      Activity.bind_of_error hout
    rw [Instance.session, Activity.generator, haround]
    rfl
  rw [Activity.bind_apply, hsession]
  exact ⟨⟨_, rfl⟩, hcalls⟩

/-- calls as a session leaves them, seen from outside -/
theorem Closes.watch {codes : Codes} {β : Type} {a : Activity β} {w : List Step} {ends : List (Call Float) → Outcome β → Prop}
    (ha : Closes S offered codes a w ends) (hw : IsSession w) (hl : h.linkage.resolve offered = .loaded codes) :
    ∃ made, (a h).2.calls = h.calls ++ made ∧ watch S h.calls .idle made = some .idle := by
  obtain ⟨hcalls, -, -⟩ := ha h hl
  exact ⟨_, hcalls.trans (List.append_assoc ..), neutral_session hw h.calls⟩

/-- **Every request leaves nothing open:** it adds calls to the ones before, all of them in place. -/
theorem request_watch {r : Request} (hfree : r.solver.ClosesFreely) (h : History) :
    ∃ made, (r.run h).calls = h.calls ++ made ∧ watch r.solver h.calls .idle made = some .idle := by
  have huntouched : (r.run h).calls = h.calls →
      ∃ made, (r.run h).calls = h.calls ++ made ∧ watch r.solver h.calls .idle made = some .idle :=
    fun hcalls => ⟨[], hcalls.trans (List.append_nil _).symm, rfl⟩
  by_cases hl : ∃ codes, h.linkage.resolve r.offered = .loaded codes
  · obtain ⟨codes, hl⟩ := hl
    cases hresolve : r.inst.settings.resolve r.override with
    | error e =>
      apply huntouched
      unfold Request.run
      cases r.path with
      | none => exact solve_eq.2.trans (solveRaw_of_badTolerance hresolve).1
      | some path => exact (writeData_of_refused (.inr (.inl ⟨e, hresolve⟩))).2
    | ok t =>
      unfold Request.run at huntouched ⊢
      cases hpath : r.path with
      | none =>
        obtain ⟨made, hmade, hwatch⟩ := (solveRaw_closes hfree hresolve).watch (isSession_solveSteps r.inst r.solver codes r.override) hl
        exact ⟨made, solve_eq.2.trans hmade, hwatch⟩
      | some path =>
        cases htext : Instance.writtenPath path with
        | error e =>
          rw [hpath] at huntouched
          exact huntouched (writeData_of_refused (.inr (.inr ⟨e, htext⟩))).2
        | ok text =>
          exact (writeData_closes hfree hresolve htext).watch (isSession_writeSteps r.inst r.solver text r.override) hl
  · have hmissing : ∀ codes, h.linkage.resolve r.offered ≠ .loaded codes := fun codes hc => hl ⟨codes, hc⟩
    apply huntouched
    unfold Request.run
    cases r.path with
    | none => exact solve_eq.2.trans (solveRaw_of_missing hmissing).2
    | some path => exact (writeData_of_refused (.inl hmissing)).2

/-- **Any list of requests,** one after the other, starts and ends with nothing open. -/
theorem watchAll_idle {rs : List Request} (hfree : ∀ r ∈ rs, r.solver.ClosesFreely) (h : History) :
    watchAll rs h .idle = some .idle := by
  induction rs generalizing h with
  | nil => rfl
  | cons r rs ih =>
    obtain ⟨hr, hrs⟩ := List.forall_mem_cons.1 hfree
    obtain ⟨made, hcalls, hwatch⟩ := request_watch hr h
    rw [watchAll, hcalls, List.drop_left, hwatch]
    exact ih hrs (r.run h)

end Requests

/-! ## The discipline -/

/-- **Sessions are disciplined.** Let a solver refuse whatever it wants but the closing calls. Solving and writing make the calls of
their words up to the first refused one, or to the first part of an answer that cannot be read, and close what they opened. A refusal of
the work passes as it came; so does one of the calls before it, unless it ends an iteration: then another refusal leaves the generator.
Without a package, or with an override that is refused, nothing is opened. Settings are not made of a tolerance that would be refused as an
override, but one that is put into them later is the one that a session has. In any list of requests, which all add calls to those before,
no call is out of place and nothing stays open. -/
theorem session_discipline (I : Instance) (S : Solver) (hfree : S.ClosesFreely) (offered : Option Codes) (override : Option Value)
    (h : History) :
    (∀ codes t, h.linkage.resolve offered = .loaded codes → I.settings.resolve override = .ok t →
      Disciplined S h.calls (I.solveWord S codes override) (progress S h.calls (I.openingSteps override))
          (progress S h.calls (I.solveSteps S codes override)) (I.solveRaw S offered override h) ∧
        (I.solve S offered override h).1 = (I.solveRaw S offered override h).1.bind I.decoded ∧
        (I.solve S offered override h).2.calls = (I.solveRaw S offered override h).2.calls ∧
        ∀ path text, Instance.writtenPath path = .ok text →
          Disciplined S h.calls (I.writeWord S text override) (progress S h.calls (I.openingSteps override))
            (progress S h.calls (I.writeSteps S text override)) (I.writeData S offered path override h)) ∧
      ((∀ codes, h.linkage.resolve offered ≠ .loaded codes) →
        (I.solveRaw S offered override h).1 = .error .packageMissing ∧ (I.solveRaw S offered override h).2.calls = h.calls ∧
          ∀ path, (∃ e, (I.writeData S offered path override h).1 = .error e) ∧
            (I.writeData S offered path override h).2.calls = h.calls) ∧
      (∀ e, I.settings.resolve override = .error e →
        (∀ codes, h.linkage.resolve offered = .loaded codes → (I.solveRaw S offered override h).1 = .error e) ∧
          (I.solveRaw S offered override h).2.calls = h.calls ∧
          ∀ path, I.writeData S offered path override h = (.error e, h)) ∧
      (∀ v logging, (∃ e, Settings.ofValues (some v) logging = .error e) ↔ ∃ e, I.settings.resolve (some v) = .error e) ∧
      (∀ t, (I.settings.changed t).resolve none = .ok t) ∧
      ∀ rs : List Request, (∀ r ∈ rs, r.solver.ClosesFreely) →
        ∀ h', watchAll rs h' .idle = some .idle ∧ ∀ r ∈ rs, h'.calls <+: (r.run h').calls := by
  refine ⟨fun codes t hl hresolve => ⟨?_, solve_eq.1, solve_eq.2, fun path text hpath => ?_⟩, fun hmissing => ?_, fun e he => ?_,
    fun v logging => ?_, fun t => rfl, fun rs hrs h' => ⟨watchAll_idle hrs h', fun r hr => ?_⟩⟩
  · rw [← callsOf_solveSteps]
    exact (solveRaw_closes hfree hresolve).disciplined (isSession_solveSteps I S codes override) hl
  · rw [← callsOf_writeSteps]
    exact (writeData_closes hfree hresolve hpath).disciplined (isSession_writeSteps I S text override) hl
  · exact ⟨(solveRaw_of_missing hmissing).1, (solveRaw_of_missing hmissing).2, fun path => writeData_of_refused (.inl hmissing)⟩
  · refine ⟨(solveRaw_of_badTolerance he).2, (solveRaw_of_badTolerance he).1, fun path => ?_⟩
    unfold Instance.writeData
    rw [he]
    rfl
  · exact Settings.refused_iff
  · obtain ⟨made, hcalls, -⟩ := request_watch (hrs r hr) h'
    exact ⟨made, hcalls.symm⟩

/-- a solver that refuses to optimise -/
def refusingSolver : Solver where
  refuses := fun _ c => match c with
    | .optimise => some (.raised .value "refused")
    | _ => none
  handle := fun k => k
  code := .error .missingEntry
  primal := .error .missingEntry
  dual := .error .missingEntry
  objective := .error .missingEntry
  messages := []
  started := .ofFloat 0.0
  finished := .ofFloat 1.0

/-- a solver that refuses to optimise is closed in order; a tolerance that is a text opens nothing; after a refused request another
one is in place -/
theorem session_discipline_refused :
    let I : Instance := ⟨.plain mixedDoubles, .standard⟩
    let h : History := ⟨.unresolved, [], []⟩
    (I.solveRaw refusingSolver (some []) none h).1 = .error (.raised .value "refused") ∧
      (I.solveRaw refusingSolver (some []) none h).2.calls =
        [Call.makeEnv, Call.enterEnv, Call.makeTask, Call.enterTask, Call.setTolerance (.ofFloat 1e-9), Call.attachLog] ++
          mixedDoubles.population (fun k => k) ++ [Call.optimise, Call.closeTask (some .value), Call.closeEnv (some .value)] ∧
      (I.solveRaw refusingSolver (some []) (some (.text "tight")) h).2.calls = [] ∧
      watchAll [⟨I, refusingSolver, some [], none, none⟩, ⟨I, refusingSolver, some [], none, some (.path "a.cbf")⟩] h .idle =
        some .idle := by
  intro I h
  have hfree : refusingSolver.ClosesFreely := fun _ _ => ⟨rfl, rfl⟩
  obtain ⟨hsolve, -, -, -, -, hall⟩ := session_discipline I refusingSolver hfree (some []) none h
  obtain ⟨-, -, htolerance, -⟩ := session_discipline I refusingSolver hfree (some []) (some (.text "tight")) h
  obtain ⟨hcalls, -, -, -, -, hout, -⟩ := (hsolve [] _ rfl rfl).1
  refine ⟨hout _ rfl, hcalls, (htolerance .notNumeric rfl).2.1, (hall _ ?_ h).1⟩
  exact List.forall_mem_cons.2 ⟨hfree, List.forall_mem_singleton.2 hfree⟩

/-- a solver that ends an iteration when it is told the tolerance -/
def endingSolver : Solver := { refusingSolver with
  refuses := fun _ c => match c with
    | .setTolerance _ => some (.raised (.stopping "exhausted") "no more")
    | _ => none }

/-- a solver that refuses nothing, reports an optimal status and a text among the numbers of the primal matrix -/
def garblingSolver : Solver := { refusingSolver with
  refuses := fun _ _ => none
  code := .ok ⟨.text "optimal", none⟩
  primal := .ok (.list [.text "x"]) }

/-- the codes of a package that knows one status -/
def optimalAlone : Codes := [("optimal", ⟨.text "optimal", none⟩)]

/-- a text that is no numeral makes an array unreadable -/
theorem garbled_primal : Outcome.refusal (garblingSolver.primal.bind Value.toTensor) = some .unreadable := by
  have hcells : (Value.list [.text "x"]).cells = .ok ⟨[1], #[.text "x"], rfl⟩ := by
    simp only [Value.cells, Value.cellsWith, Value.shape?, Value.listShape?, Value.shapes?, Value.leaves, Value.leavesOf]
    rfl
  show Outcome.refusal (Value.toTensor (.list [.text "x"])) = _
  rw [Value.toTensor, hcells]
  decide +kernel

/-- a solver that refuses nothing is stopped where the primal matrix cannot be read -/
theorem solveRaw_garbled {I : Instance} {h : History} (hlogging : I.settings.logging.truthy = .ok true)
    (hl : h.linkage.resolve (some optimalAlone) = .loaded optimalAlone) :
    (I.solveRaw garblingSolver (some optimalAlone) none h).2.calls =
      h.calls ++ (I.setupWord garblingSolver none ++ [Call.optimise, Call.summarise, Call.askStatus, Call.askPrimal]) ++
        [Call.closeTask (some .value), Call.closeEnv (some .value)] := by
  have haccepts : ∀ past c, garblingSolver.refuses past c = none := fun _ _ => rfl
  have hstatus : garblingSolver.status optimalAlone = .ok .optimal := by decide +kernel
  let read : List Step := [.call .optimise, .look none, .look none, .call .summarise, .call .askStatus, .look none, .call .askPrimal]
  have hsteps : I.solveSteps garblingSolver optimalAlone none = (I.openingSteps none ++ (I.populationSteps garblingSolver ++ read)) ++
      .look (some .unreadable) :: (Instance.readingSteps garblingSolver).drop 2 := by
    have hsucceeds : garblingSolver.succeeds optimalAlone = true := by rw [Solver.succeeds, hstatus]; rfl
    rw [Instance.solveSteps, Instance.answerSteps, hlogging, hstatus, hsucceeds, if_pos rfl, Instance.readingSteps, garbled_primal,
      List.append_assoc, List.append_assoc]
    rfl
  have hlooks : ∀ r, Step.look r ∈ I.openingSteps none ++ (I.populationSteps garblingSolver ++ read) → r = none := by
    intro r hr
    rcases List.mem_append.1 hr with hr | hr
    · exact looks_openingSteps hlogging r hr
    · rcases List.mem_append.1 hr with hr | hr
      · exact looks_map_call _ r hr
      · simpa [read] using hr
  have hresolve : I.settings.resolve none = .ok I.settings.tolerance := rfl
  obtain ⟨hcalls, -, -⟩ := solveRaw_closes (fun past k => ⟨haccepts past _, haccepts past _⟩) hresolve h hl
  rw [hcalls, closings_session h.calls (isSession_solveSteps I garblingSolver optimalAlone none), hsteps,
    progress_until haccepts hlooks, callsOf_setup]
  simp only [Progress.made, Option.toList_none, List.append_nil]
  rfl

/-- **Three sessions that end otherwise.** The end of an iteration does not leave a session as it came, although the closing calls are told of
it. A solver that refuses nothing is not asked for the multipliers once the primal matrix cannot be read. And a tolerance below zero that
was put into settings is handed over, although it would be refused as an override. -/
theorem session_otherwise :
    let I : Instance := ⟨.plain mixedDoubles, .standard⟩
    let J : Instance := ⟨.plain mixedDoubles, Settings.standard.changed ⟨.ofFloat (-1.0), -1.0⟩⟩
    let h : History := ⟨.unresolved, [], []⟩
    let opening : List (Call Float) := [Call.makeEnv, Call.enterEnv, Call.makeTask, Call.enterTask]
    let ending : Kind := .stopping "exhausted"
    ((∀ past v, endingSolver.refuses past (.setTolerance v) = some (.raised ending "no more")) ∧
        (I.solveRaw endingSolver (some []) none h).1 = .error .stopped ∧
        (I.solveRaw endingSolver (some []) none h).2.calls =
          opening ++ [Call.setTolerance (.ofFloat 1e-9), Call.closeTask (some ending), Call.closeEnv (some ending)]) ∧
      ((∀ past c, garblingSolver.refuses past c = none) ∧ (I.solveRaw garblingSolver (some optimalAlone) none h).2.calls =
        opening ++ [Call.setTolerance (.ofFloat 1e-9), Call.attachLog] ++ mixedDoubles.population (fun k => k) ++
          [Call.optimise, Call.summarise, Call.askStatus, Call.askPrimal, Call.closeTask (some .value), Call.closeEnv (some .value)]) ∧
      Tolerance.ofValue (.ofFloat (-1.0)) = .error .badTolerance ∧
        (J.solveRaw endingSolver (some []) none h).2.calls =
          opening ++ [Call.setTolerance (.ofFloat (-1.0)), Call.closeTask (some ending), Call.closeEnv (some ending)] := by
  have hrefused : Outcome.refusal (Tolerance.ofValue (.ofFloat (-1.0))) = some .badTolerance := by decide +kernel
  refine ⟨⟨fun _ _ => rfl, rfl, rfl⟩, ⟨fun _ _ => rfl, solveRaw_garbled rfl rfl⟩, ?_, rfl⟩
  cases hvalue : Tolerance.ofValue (.ofFloat (-1.0)) with
  | ok t => rw [hvalue] at hrefused; cases hrefused
  | error e => rw [hvalue] at hrefused; cases hrefused; rfl

end MomentProgram
