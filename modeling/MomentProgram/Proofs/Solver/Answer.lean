/-
Solving from the call to the result.

A solver that refuses nothing reports a code, and the package has codes under some of the names of the statuses. `statusOf_of_means`
and `statusOf_of_unnamed` say which status is found: the table keeps the last of equal codes, so it matters that the codes of
different statuses differ. The status decides which steps the session still has, and the arrays are among them for the optimal ones
alone; that is why a failure cannot depend on them (`solve_of_failure`). With arrays of doubles every look succeeds
(`toTensor_floats`), the session runs to its end and is closed, and only then are the lengths checked (`solve_of_optimal`).

- `solve_outcome`: the result for every code and arrays of any lengths.
- `solve_outcome_partial`: a package that knows three of the statuses.
-/
import Mathlib
import MomentProgram.Solver.Session
import MomentProgram.Proofs.Program.Decoded
import MomentProgram.Proofs.Solver.Population
import MomentProgram.Proofs.Solver.Session
import MomentProgram.Proofs.Value.Array

namespace MomentProgram

/-! ## The status of a code -/

namespace Codes

/-- a status of which the package has the code -/
def Member (codes : Codes) (s : Status) (k : Key) : Prop := s ≠ .other ∧ codes.code? s.name = some k

/-- a code that equals the one of a status -/
def Means (codes : Codes) (code : Key) (s : Status) : Prop := ∃ k, codes.Member s k ∧ k.same code = true

/-- what a package promises about its codes and a reported one: all can be keys, different statuses have different codes, and codes
that equal the reported one equal each other -/
structure Sound (codes : Codes) (code : Key) : Prop where
  keyed : ∀ s k, codes.Member s k → k.value.isKey = true
  code_keyed : code.value.isKey = true
  distinct : ∀ s s' k k', codes.Member s k → codes.Member s' k' → k.same k' = true → s = s'
  equality : ∀ s s' k k', codes.Member s k → codes.Member s' k' → k.same code = true → k'.same code = true → k.same k' = true

variable {codes : Codes} {code : Key} {s : Status}

theorem mem_table {k : Key} : (k, s) ∈ codes.table ↔ codes.Member s k := by
  have hall : s ∈ Status.all := by cases s <;> decide
  constructor
  · intro h
    obtain ⟨s', hs', hmap⟩ := List.mem_filterMap.1 h
    obtain ⟨k', hk', he⟩ := Option.map_eq_some_iff.1 hmap
    cases he
    exact ⟨by simpa using (List.mem_filter.1 hs').2, hk'⟩
  · rintro ⟨hs, hk⟩
    refine List.mem_filterMap.2 ⟨s, List.mem_filter.2 ⟨hall, by simpa using hs⟩, ?_⟩
    rw [hk]
    rfl

/-- with sound codes the status is found by a search of the table -/
theorem statusOf_eq (h : codes.Sound code) :
    codes.statusOf code = .ok (((codes.table.reverse.find? fun p => p.1.same code).map (·.2)).getD .other) := by
  have hkeys : (codes.table.all fun p => p.1.value.isKey) = true :=
    List.all_eq_true.2 fun p hp => h.keyed p.2 p.1 (mem_table.1 hp)
  simp only [statusOf, hkeys, h.code_keyed]
  rfl

/-- **A code has the status whose code it equals.** -/
theorem statusOf_of_means (h : codes.Sound code) (hs : codes.Means code s) : codes.statusOf code = .ok s := by
  obtain ⟨k, hk, hsame⟩ := hs
  rw [statusOf_eq h]
  cases hfind : codes.table.reverse.find? fun p => p.1.same code with
  | none =>
    have hnot := List.find?_eq_none.1 hfind (k, s) (List.mem_reverse.2 (mem_table.2 hk))
    exact absurd hsame hnot
  | some p =>
    have hp := mem_table.1 (List.mem_reverse.1 (List.mem_of_find?_eq_some hfind))
    have hpsame : p.1.same code = true := by simpa using List.find?_some hfind
    have heq : p.2 = s := h.distinct p.2 s p.1 k hp hk (h.equality p.2 s p.1 k hp hk hpsame hsame)
    rw [Option.map_some, Option.getD_some, heq]

/-- and no status of a name if it equals none of their codes -/
theorem statusOf_of_unnamed (h : codes.Sound code) (hnone : ∀ s, ¬ codes.Means code s) : codes.statusOf code = .ok .other := by
  rw [statusOf_eq h, List.find?_eq_none.2 fun p hp hsame => hnone p.2 ⟨p.1, mem_table.1 (List.mem_reverse.1 hp), hsame⟩]
  rfl

end Codes

/-! ## A session that nothing stops -/

section Solved

variable {I : Instance} {S : Solver} {offered : Option Codes} {codes : Codes} {h : History} {override : Option Value}

/-- no look of a session fails if the flag, the clock and the status can be read, and with an optimal status the arrays -/
theorem looks_solveSteps {b : Bool} {elapsed : Float} {status : Status} (hlogging : I.settings.logging.truthy = .ok b)
    (hclock : Instance.milliseconds S.started S.finished = .ok elapsed) (hstatus : S.status codes = .ok status)
    (harrays : status.isOptimal = true → ∀ r, Step.look r ∈ Instance.readingSteps S → r = none) :
    ∀ r, Step.look r ∈ I.solveSteps S codes override → r = none := by
  have hsucceeds : S.succeeds codes = status.isOptimal := by rw [Solver.succeeds, hstatus]
  have hanswer : ∀ r, Step.look r ∈ I.answerSteps S codes → r = none := fun r hr => by
    rw [Instance.answerSteps, hlogging, hclock, hstatus, hsucceeds] at hr
    rcases List.mem_append.1 hr with hr | hr
    · simpa [Outcome.refusal] using hr
    · cases hoptimal : status.isOptimal with
      | true => exact harrays hoptimal r (by simpa [hoptimal] using hr)
      | false => simp [hoptimal] at hr
  intro r hr
  rw [Instance.solveSteps] at hr
  simp only [List.mem_append] at hr
  rcases hr with hr | hr | hr
  · exact looks_openingSteps hlogging r hr
  · exact looks_map_call _ r hr
  · exact hanswer r hr

/-- **A session that nothing stops** makes all its calls, is closed, and reads what the solver reports. -/
theorem solveRaw_of_accepting {t : Tolerance} (haccepts : ∀ past c, S.refuses past c = none)
    (hl : h.linkage.resolve offered = .loaded codes) (hresolve : I.settings.resolve override = .ok t)
    (hlooks : ∀ r, Step.look r ∈ I.solveSteps S codes override → r = none) :
    ∃ a, (I.solveRaw S offered override h).1 = .ok a ∧ S.Reports codes a ∧
      (I.solveRaw S offered override h).2.calls = h.calls ++ I.solveWord S codes override ++ [Call.closeTask none, Call.closeEnv none] := by
  have hfree : S.ClosesFreely := fun past k => ⟨haccepts past _, haccepts past _⟩
  obtain ⟨hcalls, -, hout⟩ := solveRaw_closes hfree hresolve h hl
  have hprogress : progress S h.calls (I.solveSteps S codes override) = ⟨I.solveWord S codes override, none, none⟩ := by
    rw [progress_accepting haccepts hlooks, callsOf_solveSteps]
  have hopening : (progress S h.calls (I.openingSteps override)).refusal = none := by
    rw [progress_accepting haccepts fun r hr => hlooks r (List.mem_append_left _ hr)]
  have hclosings : (progress S h.calls (I.solveSteps S codes override)).closings = [Call.closeTask none, Call.closeEnv none] := by
    rw [closings_session h.calls (isSession_solveSteps I S codes override), hprogress]
    rfl
  rw [hclosings, hprogress] at hcalls
  rw [Instance.solveSteps] at hprogress
  simp only [Leaves, hopening, Progress.Yields, hprogress] at hout
  obtain ⟨a, ha, hreports⟩ := hout
  refine ⟨a, ha, hreports, hcalls.trans ?_⟩
  simp [Progress.made]

end Solved

/-! ## The result -/

/-- the exact objective, added up multiplier by multiplier -/
theorem foldObjective_eq (offset : ℚ) (bounds y : List ℚ) :
    foldObjective offset bounds y = offset + (List.zipWith (· * ·) y bounds).sum := by
  unfold foldObjective
  induction y generalizing offset bounds with
  | nil => simp
  | cons a y ih =>
    cases bounds with
    | nil => simp
    | cons b bounds =>
      rw [List.zip_cons_cons, List.foldl_cons, ih, List.zipWith_cons_cons, List.sum_cons, add_assoc]

/-- a symmetric array is what its packed triangle unpacks to -/
theorem Packed.toGrid_ofGrid {α : Type} [Scalar α] {d : Nat} {X : Grid d α} (hX : ∀ r c, X.get r c = X.get c r) :
    toGrid d (ofGrid X) = X := by
  refine Grid.ext fun r c => ?_
  rcases le_total c r with h | h
  · exact get_toGrid_ofGrid X r c h
  · rw [get_toGrid_comm _ (by simp [ofGrid]), get_toGrid_ofGrid X c r h, hX]

section Accepted

variable {P : Program Float} {S : Solver} {offered : Option Codes} {codes : Codes} {h : History} {t₀ t₁ : Float} {status : Status}
  (haccepts : ∀ past c, S.refuses past c = none) (hl : h.linkage.resolve offered = .loaded codes)
  (hstarted : S.started = .ofFloat t₀) (hfinished : S.finished = .ofFloat t₁)

include haccepts hl hstarted hfinished

/-- with a clock in doubles and the standard settings only the status and the arrays could stop a session -/
theorem solve_of_status (hstatus : S.status codes = .ok status)
    (harrays : status.isOptimal = true → ∀ r, Step.look r ∈ Instance.readingSteps S → r = none) :
    ∃ a, S.Reports codes a ∧ a.status = status ∧
      (Instance.solve S offered ⟨.plain P, .standard⟩ none h).1 = Instance.decoded ⟨.plain P, .standard⟩ a ∧
      (Instance.solve S offered ⟨.plain P, .standard⟩ none h).2.calls =
        h.calls ++ Instance.solveWord ⟨.plain P, .standard⟩ S codes none ++ [Call.closeTask none, Call.closeEnv none] := by
  have hclock : ∃ elapsed, Instance.milliseconds S.started S.finished = .ok elapsed := by
    rw [hstarted, hfinished]
    exact ⟨_, rfl⟩
  obtain ⟨elapsed, helapsed⟩ := hclock
  have hlooks : ∀ r, Step.look r ∈ Instance.solveSteps ⟨.plain P, .standard⟩ S codes none → r = none :=
    looks_solveSteps (I := ⟨.plain P, .standard⟩) rfl helapsed hstatus harrays
  obtain ⟨a, ha, hreports, hcalls⟩ := solveRaw_of_accepting haccepts hl rfl hlooks
  have hsame : a.status = status := Except.ok.inj (hreports.1.symm.trans hstatus)
  refine ⟨a, hreports, hsame, ?_, solve_eq.2.trans hcalls⟩
  rw [solve_eq.1, ha]
  rfl

/-- **A failure is the reason of its status,** whatever the arrays are. -/
theorem solve_of_failure (hstatus : S.status codes = .ok status) (hfailure : status.isOptimal = false) :
    (Instance.solve S offered ⟨.plain P, .standard⟩ none h).1 = .ok (.failure status.reason) ∧
      (Instance.solve S offered ⟨.plain P, .standard⟩ none h).2.calls =
        h.calls ++ Instance.solveWord ⟨.plain P, .standard⟩ S codes none ++ [Call.closeTask none, Call.closeEnv none] := by
  have harrays : status.isOptimal = true → ∀ r, Step.look r ∈ Instance.readingSteps S → r = none :=
    fun hoptimal => absurd (hfailure.symm.trans hoptimal) Bool.false_ne_true
  obtain ⟨a, ⟨-, harray⟩, hsame, hout, hcalls⟩ :=
    solve_of_status (P := P) haccepts hl hstarted hfinished hstatus harrays
  rw [hsame, hfailure] at harray
  refine ⟨hout.trans ?_, hcalls⟩
  have hnone : a.arrays = none := harray
  simp only [Instance.decoded, hnone, StatedProgram.decode, hsame, P.decode_failure hfailure]
  rfl

/-- **Arrays of doubles are decoded after the session is closed.** -/
theorem solve_of_optimal {xs ys : List Float} {p : Float} (hstatus : S.status codes = .ok status)
    (hoptimal : status.isOptimal = true)
    (hprimal : S.primal = .ok (.list (xs.map .ofFloat))) (hdual : S.dual = .ok (.list (ys.map .ofFloat)))
    (hobjective : S.objective = .ok (.ofFloat p)) :
    (Instance.solve S offered ⟨.plain P, .standard⟩ none h).1 =
        (P.decode status (some (.ok xs)) (some (.ok ys)) (some (.ok p))).mapError Fault.writable ∧
      (Instance.solve S offered ⟨.plain P, .standard⟩ none h).2.calls =
        h.calls ++ Instance.solveWord ⟨.plain P, .standard⟩ S codes none ++ [Call.closeTask none, Call.closeEnv none] := by
  obtain ⟨x, hx, rfl⟩ := Value.toTensor_floats xs
  obtain ⟨y, hy, rfl⟩ := Value.toTensor_floats ys
  have hreadx : S.primal.bind Value.toTensor = .ok x := by rw [hprimal]; exact hx
  have hready : S.dual.bind Value.toTensor = .ok y := by rw [hdual]; exact hy
  have hreadp : S.objective.bind Value.toFloat = .ok p := by rw [hobjective]; rfl
  have harrays : status.isOptimal = true → ∀ r, Step.look r ∈ Instance.readingSteps S → r = none := by
    intro _ r hr
    rw [Instance.readingSteps, hreadx, hready, hreadp] at hr
    simpa [Outcome.refusal] using hr
  obtain ⟨a, ⟨-, harray⟩, hsame, hout, hcalls⟩ :=
    solve_of_status (P := P) haccepts hl hstarted hfinished hstatus harrays
  rw [hsame, if_pos hoptimal, hreadx, hready, hreadp] at harray
  obtain ⟨x', y', p', harray, hx', hy', hp'⟩ := harray
  cases hx'
  cases hy'
  cases hp'
  refine ⟨hout.trans ?_, hcalls⟩
  simp only [Instance.decoded, harray, StatedProgram.decode, hsame]

end Accepted

section Result

variable {t₀ t₁ : Float}

/-- a refusal that is told in writing keeps its family -/
theorem kind_writable {e : Fault} (he : e.kind = .value) : e.writable.kind = .value := by
  have hcases : e.writable = .tooLong ∨ e.writable = e := ite_eq_or_eq _ _ _
  rcases hcases with h | h
  · rw [h]; rfl
  · rw [h]; exact he

/-- **Solving, end to end.** Let a solver refuse nothing and report a code; the package has codes under any of the seven names, which
tell the statuses apart, and may have others. The four certificates give the infeasible failure, unknown the unknown one and a code
that equals none of a name the other one, whatever the arrays are. With an optimal status and arrays of doubles the result is an
optimum if the lengths are right, and otherwise the lengths are refused. In every case the session is over when the result is found:
its calls are all made, and the last ones close it. -/
theorem solve_outcome (P : Program Float) (S : Solver) (offered : Option Codes) (codes : Codes) (code : Key) (h : History)
    (haccepts : ∀ past c, S.refuses past c = none) (hl : h.linkage.resolve offered = .loaded codes)
    (hstarted : S.started = .ofFloat t₀) (hfinished : S.finished = .ofFloat t₁) (hcode : S.code = .ok code)
    (hsound : codes.Sound code) :
    let I : Instance := ⟨.plain P, .standard⟩
    let word := I.solveWord S codes none ++ [Call.closeTask none, Call.closeEnv none]
    (∀ s ∈ [Status.dualInfeasible, .primalInfeasible, .nearDualInfeasible, .nearPrimalInfeasible], codes.Means code s →
        (I.solve S offered none h).1 = .ok (.failure .infeasible) ∧ (I.solve S offered none h).2.calls = h.calls ++ word) ∧
      (codes.Means code .unknown →
        (I.solve S offered none h).1 = .ok (.failure .unknown) ∧ (I.solve S offered none h).2.calls = h.calls ++ word) ∧
      ((∀ s, ¬ codes.Means code s) →
        (I.solve S offered none h).1 = .ok (.failure .other) ∧ (I.solve S offered none h).2.calls = h.calls ++ word) ∧
      ∀ s ∈ [Status.optimal, .nearOptimal], codes.Means code s →
        ∀ (xs ys : List Float) (p : Float), S.primal = .ok (.list (xs.map .ofFloat)) → S.dual = .ok (.list (ys.map .ofFloat)) →
          S.objective = .ok (.ofFloat p) →
          (I.solve S offered none h).2.calls = h.calls ++ word ∧
            (¬(xs.length = P.dim * (P.dim + 1) / 2 ∧ ys.length = P.numConstraints) →
              ∃ e, (I.solve S offered none h).1 = .error e ∧ e.kind = .value) ∧
            (xs.length = P.dim * (P.dim + 1) / 2 → ys.length = P.numConstraints →
              ∃ o : Optimum Float, (I.solve S offered none h).1 = .ok (.optimum o) ∧ o.dual = 1.0 :: ys ∧ o.reported = some p ∧
                (∀ X : Grid P.dim Float, (∀ r c, X.get r c = X.get c r) → pack (.ofGrid X) = .ok xs →
                  (⟨o.size, o.primal⟩ : (d : ℕ) × Grid d Float) = ⟨P.dim, X⟩) ∧
                o.objective = foldObjective P.offset P.bounds ys ∧
                P.exactly.dualObjective (ys.map exactValue) =
                  .ok (foldObjective P.exactly.offset P.exactly.bounds (ys.map exactValue))) := by
  intro I word
  have hmeans : ∀ s, codes.Means code s → S.status codes = .ok s := fun s hs => by
    rw [Solver.status, hcode]
    exact Codes.statusOf_of_means hsound hs
  refine ⟨fun s hs hcodes => ?_, fun hcodes => ?_, fun hnone => ?_, fun s hs hcodes xs ys p hprimal hdual hobjective => ?_⟩
  · have hreason : s.isOptimal = false ∧ s.reason = .infeasible := by
      simp only [List.mem_cons, List.not_mem_nil, or_false] at hs
      rcases hs with rfl | rfl | rfl | rfl <;> exact ⟨rfl, rfl⟩
    obtain ⟨hout, hcalls⟩ := solve_of_failure (P := P) haccepts hl hstarted hfinished (hmeans s hcodes) hreason.1
    exact ⟨by rw [hout, hreason.2], hcalls.trans (List.append_assoc ..)⟩
  · obtain ⟨hout, hcalls⟩ := solve_of_failure (P := P) haccepts hl hstarted hfinished (hmeans .unknown hcodes) rfl
    exact ⟨hout, hcalls.trans (List.append_assoc ..)⟩
  · have hstatus : S.status codes = .ok .other := by
      rw [Solver.status, hcode]
      exact Codes.statusOf_of_unnamed hsound hnone
    obtain ⟨hout, hcalls⟩ := solve_of_failure (P := P) haccepts hl hstarted hfinished hstatus rfl
    exact ⟨hout, hcalls.trans (List.append_assoc ..)⟩
  · have hoptimal : s.isOptimal = true := by
      simp only [List.mem_cons, List.not_mem_nil, or_false] at hs
      rcases hs with rfl | rfl <;> rfl
    obtain ⟨hout, hcalls⟩ :=
      solve_of_optimal (P := P) haccepts hl hstarted hfinished (hmeans s hcodes) hoptimal hprimal hdual hobjective
    refine ⟨hcalls.trans (List.append_assoc ..), fun hlengths => ?_, fun hx hy => ?_⟩
    · obtain ⟨e, he, hkind⟩ := P.decode_refused hoptimal hlengths (some (.ok p))
      refine ⟨e.writable, ?_, kind_writable hkind⟩
      rw [hout, he]
      rfl
    · have hdecode := P.decode_optimum hoptimal hx hy (some p)
      have hlength : (ys.map exactValue).length = P.exactly.numConstraints := by
        rw [List.length_map, hy, Program.numConstraints, Program.numConstraints, Program.exactly, List.length_map]
      refine ⟨P.optimumAt xs ys (some p), hout.trans (congrArg (Except.mapError Fault.writable) hdecode), rfl, rfl,
        fun X hX hpack => ?_, rfl, ?_⟩
      · rw [pack_ofGrid] at hpack
        obtain rfl := Except.ok.inj hpack
        rw [Program.optimumAt, Packed.toGrid_ofGrid hX]
      · rw [Program.dualObjective_of_length _ hlength, foldObjective_eq]

/-- a package that has the codes of three statuses, and one of no status -/
def partialCodes : Codes :=
  [("optimal", ⟨.ofInt 1, none⟩), ("prim_infeas_cer", ⟨.ofInt 2, none⟩), ("dual_feas", ⟨.ofInt 3, none⟩),
    ("unknown", ⟨.ofInt 0, none⟩)]

/-- a solver that reports a code and arrays of doubles -/
def reportingSolver (code : Int) (xs ys : List Float) (p : Float) : Solver where
  refuses := fun _ _ => none
  handle := fun k => k
  code := .ok ⟨.ofInt code, none⟩
  primal := .ok (.list (xs.map .ofFloat))
  dual := .ok (.list (ys.map .ofFloat))
  objective := .ok (.ofFloat p)
  messages := []
  started := .ofFloat 0.0
  finished := .ofFloat 1.0

/-- whole numbers are the same key if they are equal -/
theorem Key.same_ofInt {a b : Int} : Key.same ⟨.ofInt a, none⟩ ⟨.ofInt b, none⟩ = true ↔ a = b := by
  simp [Key.same, Value.ofInt, Value.same, Number.same, Number.parts?, Number.toExact, Exact.same, Exact.order, Exact.zero]

/-- the result and the traces of solving with such a solver -/
def reportedRun (code : Int) (xs ys : List Float) (p : Float) : Outcome (Solution Float) × History :=
  Instance.solve (reportingSolver code xs ys p) (some partialCodes) ⟨.plain mixedDoubles, .standard⟩ none ⟨.unresolved, [], []⟩

theorem member_partialCodes {s : Status} {k : Key} (h : partialCodes.Member s k) :
    (s = .optimal ∧ k = ⟨.ofInt 1, none⟩) ∨ (s = .primalInfeasible ∧ k = ⟨.ofInt 2, none⟩) ∨
      (s = .unknown ∧ k = ⟨.ofInt 0, none⟩) := by
  obtain ⟨hs, hk⟩ := h
  cases s <;> simp_all [partialCodes, Codes.code?, Status.name, List.lookup, Value.ofInt, eq_comm]

theorem sound_partialCodes (code : Int) : partialCodes.Sound ⟨.ofInt code, none⟩ where
  keyed s k h := by
    rcases member_partialCodes h with ⟨-, rfl⟩ | ⟨-, rfl⟩ | ⟨-, rfl⟩ <;> rfl
  code_keyed := rfl
  distinct s s' k k' h h' hsame := by
    rcases member_partialCodes h with ⟨rfl, rfl⟩ | ⟨rfl, rfl⟩ | ⟨rfl, rfl⟩ <;>
      rcases member_partialCodes h' with ⟨rfl, rfl⟩ | ⟨rfl, rfl⟩ | ⟨rfl, rfl⟩ <;> first | rfl | cases hsame
  equality s s' k k' h h' hsame hsame' := by
    rcases member_partialCodes h with ⟨-, rfl⟩ | ⟨-, rfl⟩ | ⟨-, rfl⟩ <;>
      rcases member_partialCodes h' with ⟨-, rfl⟩ | ⟨-, rfl⟩ | ⟨-, rfl⟩ <;>
        simp only [Key.same_ofInt] at hsame hsame' ⊢ <;> omega

/-- a certificate fails without any arrays; an optimal code comes with an optimum if there are three packed numbers and one
multiplier, and two packed numbers are refused -/
theorem solve_outcome_partial :
    (reportedRun 2 [] [] 0.0).1 = .ok (.failure .infeasible) ∧
      (∃ o : Optimum Float, (reportedRun 1 [4.0, 5.0, 6.0] [0.5] 7.0).1 = .ok (.optimum o) ∧
        o.dual = [1.0, 0.5] ∧ o.reported = some 7.0) ∧
      ∃ e, (reportedRun 1 [4.0, 5.0] [0.5] 7.0).1 = .error e ∧ e.kind = .value := by
  have hrun := fun code xs ys p => solve_outcome mixedDoubles (reportingSolver code xs ys p) (some partialCodes) partialCodes
    ⟨.ofInt code, none⟩ ⟨.unresolved, [], []⟩ (fun _ _ => rfl) rfl rfl rfl rfl (sound_partialCodes code)
  have hinfeasible : partialCodes.Means ⟨.ofInt 2, none⟩ .primalInfeasible :=
    ⟨⟨.ofInt 2, none⟩, ⟨by decide, by simp [partialCodes, Codes.code?, Status.name, List.lookup, Value.ofInt]⟩, Key.same_ofInt.2 rfl⟩
  have hoptimal : partialCodes.Means ⟨.ofInt 1, none⟩ .optimal :=
    ⟨⟨.ofInt 1, none⟩, ⟨by decide, by simp [partialCodes, Codes.code?, Status.name, Value.ofInt]⟩, Key.same_ofInt.2 rfl⟩
  obtain ⟨hfailure, -, -, -⟩ := hrun 2 [] [] 0.0
  obtain ⟨-, -, -, hfits⟩ := hrun 1 [4.0, 5.0, 6.0] [0.5] 7.0
  obtain ⟨-, -, -, hshort⟩ := hrun 1 [4.0, 5.0] [0.5] 7.0
  obtain ⟨-, -, hoptimum⟩ := hfits .optimal List.mem_cons_self hoptimal [4.0, 5.0, 6.0] [0.5] 7.0 rfl rfl rfl
  obtain ⟨o, ho, hdual, hreported, -⟩ := hoptimum rfl rfl
  obtain ⟨-, hrefused, -⟩ := hshort .optimal List.mem_cons_self hoptimal [4.0, 5.0] [0.5] 7.0 rfl rfl rfl
  have hlength : ¬([4.0, 5.0].length = mixedDoubles.dim * (mixedDoubles.dim + 1) / 2 ∧ [0.5].length = mixedDoubles.numConstraints) :=
    fun hboth => absurd hboth.1 (by decide)
  exact ⟨(hfailure .primalInfeasible (by simp) hinfeasible).1, ⟨o, ho, hdual, hreported⟩, hrefused hlength⟩

end Result

end MomentProgram
