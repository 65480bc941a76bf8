/-
The calls that hand a program over determine it.

A `TaskRecord` is what a task has been told by the calls on it: a matrix is kept under the handle that was given for it, and is known
to the objective and to the rows by that handle alone. Three numberings meet here, of the matrices in their order of arrival, of the
rows, and of the handles; the fixed matrix arrives first, so row `i` belongs to the matrix that arrives as number `i + 1`.

The record of a population is found call by call: `record_boundCalls` and `record_rowCalls` go through the two loops, from any row on
and with everything noted before it, and `record_population` puts them together. What is found at a row (`filter_numbered`) and behind
a handle (`lookup_numbered`) is then a matter of numbered lists.

The solver gets a call as a name and arguments, which determine it (`Call.written_injective`).

- `population_determines_program`: what the record holds, and that the program can be read off it.
- `population_determines_program_mixed`: a solver whose handles start at five.
-/
import Mathlib
import MomentProgram.Solver.Session
import MomentProgram.Proofs.Program.Encode
import MomentProgram.Proofs.Symmetric.Tagged
import MomentProgram.Proofs.Solver.Session

namespace MomentProgram

/-! ## Calls as the solver gets them -/

section Written

variable {α : Type}

/-- triples are known by their rows, columns and values -/
theorem triples_eq_of_lists {ts us : List (Triple α)} (hrow : ts.map (fun t => (t.row : Int)) = us.map fun t => (t.row : Int))
    (hcol : ts.map (fun t => (t.col : Int)) = us.map fun t => (t.col : Int)) (hvalue : ts.map (·.value) = us.map (·.value)) : ts = us := by
  induction ts generalizing us with
  | nil => exact (List.map_eq_nil_iff.1 hrow.symm).symm
  | cons t ts ih =>
    cases us with
    | nil => cases hrow
    | cons u us =>
      obtain ⟨hr, hrows⟩ := List.cons_eq_cons.1 hrow
      obtain ⟨hc, hcols⟩ := List.cons_eq_cons.1 hcol
      obtain ⟨hv, hvalues⟩ := List.cons_eq_cons.1 hvalue
      have hhead : t = u := by
        cases t
        cases u
        exact (Triple.mk.injEq ..).mpr ⟨Nat.cast_injective hr, Nat.cast_injective hc, hv⟩
      rw [hhead, ih hrows hcols hvalues]

/-- **A call is known by its name and its arguments,** those that never differ included. -/
theorem Call.written_injective : Function.Injective fun c : Call α => (c.name, c.arguments) := by
  intro c c' h
  obtain ⟨hname, harguments⟩ := Prod.mk.inj h
  -- names tell the sorts apart, and within a sort the arguments tell the calls apart
  cases c <;> cases c' <;> simp only [Call.name, String.reduceEq] at hname
  case appendMatrix.appendMatrix d ts d' ts' =>
    simp only [Call.arguments, List.cons.injEq, Argument.value.injEq, Argument.wholes.injEq, Argument.reals.injEq, and_true] at harguments
    obtain ⟨rfl, hrow, hcol, hvalue⟩ := harguments
    rw [triples_eq_of_lists hrow hcol hvalue]
  all_goals first
    | rfl
    | simpa [Call.arguments, Call.block] using harguments

end Written

/-! ## Records -/

/-- what a task has been told, each list in the order of the calls -/
structure TaskRecord where
  /-- how many rows were appended -/
  rows : List Nat
  /-- the dimensions of the blocks that were appended -/
  blocks : List Value
  offsets : List Float
  /-- how often it was told to minimise -/
  minimised : Nat
  /-- handle, dimension and triples of a matrix -/
  matrices : List (Int × Value × List (Triple Float))
  /-- handle and weight of a matrix in the objective -/
  objective : List (Int × Float)
  /-- lower and upper bound of a row -/
  bounds : List (Nat × Float × Float)
  /-- handle and weight of a matrix in a row -/
  coefficients : List (Nat × Int × Float)

namespace TaskRecord

/-- a task that has been told nothing -/
def fresh : TaskRecord := ⟨[], [], [], 0, [], [], [], []⟩

/-- notes a call, where a matrix gets the next handle -/
def note (handle : Nat → Int) (T : TaskRecord) : Call Float → TaskRecord
  | .appendRows count => { T with rows := T.rows ++ [count] }
  | .appendBlock dim => { T with blocks := T.blocks ++ [dim] }
  | .putOffset offset => { T with offsets := T.offsets ++ [offset] }
  | .minimise => { T with minimised := T.minimised + 1 }
  | .appendMatrix dim triples => { T with matrices := T.matrices ++ [(handle T.matrices.length, dim, triples)] }
  | .putObjective k weight => { T with objective := T.objective ++ [(k, weight)] }
  | .putBound row lower upper => { T with bounds := T.bounds ++ [(row, lower, upper)] }
  | .putRow row k weight => { T with coefficients := T.coefficients ++ [(row, k, weight)] }
  | _ => T

/-- notes calls one after the other -/
def noteAll (handle : Nat → Int) (T : TaskRecord) (calls : List (Call Float)) : TaskRecord := calls.foldl (note handle) T

variable (T : TaskRecord)

/-- the bounds of a row -/
def boundsAt (row : Nat) : List (Nat × Float × Float) := T.bounds.filter (·.1 == row)

/-- the coefficients of a row -/
def coefficientsAt (row : Nat) : List (Nat × Int × Float) := T.coefficients.filter (·.1 == row)

/-- the dimension and the triples of the matrix behind a handle -/
def behind (k : Int) : Option (Value × List (Triple Float)) := T.matrices.lookup k

/-- the handles by which matrices are known to the objective and to the rows -/
def references : List Int := T.objective.map (·.1) ++ T.coefficients.map (·.2.1)

/-! ## Reading a program off a record -/

/-- the matrix behind a handle -/
def matrix (k : Int) : Outcome (SymMatrix Float) :=
  match T.behind k with
  | some (.number (.int d) none, triples) => SymMatrix.ofTriples d.toNat triples
  | _ => .error .missingEntry

/-- the matrix of a row -/
def matrixAt (row : Nat) : Outcome (SymMatrix Float) :=
  match T.coefficientsAt row with
  | [(_, k, _)] => T.matrix k
  | _ => .error .missingEntry

/-- the bound of a row -/
def boundAt (row : Nat) : Outcome Float :=
  match T.boundsAt row with
  | [(_, lower, _)] => .ok lower
  | _ => .error .missingEntry

/-- the program that a task has been told -/
def program : Outcome (Program Float) :=
  match T.rows, T.blocks, T.offsets, T.objective with
  | [count], [.number (.int d) none], [offset], [(k, _)] => do
    let C ← T.matrix k
    let As ← (List.range count).mapM T.matrixAt
    let bs ← (List.range count).mapM T.boundAt
    Program.ofParts d (.ok offset) (some C) (.ok (As.map some)) (.ok bs)
  | _, _, _, _ => .error .missingEntry

end TaskRecord

/-! ## Parts of a program, put together again -/

namespace SymMatrix

/-- a matrix passes the checks of its own triples -/
theorem ofTriples_triples {α : Type} (A : SymMatrix α) : ofTriples A.dim A.triples = .ok A := by
  unfold ofTriples
  rw [dif_pos A.lower, dif_pos A.inside, dif_pos A.keyed, dif_pos A.distinct]

end SymMatrix

/-! ## Numbered lists -/

section Numbered

variable {α β : Type}

/-- what stands at a number in a list that is numbered from `n` on -/
theorem filter_numbered (f : α → Nat → β) (l : List α) (n i : Nat) :
    ((l.zipIdx n).map fun p => (p.2, f p.1 p.2)).filter (·.1 == n + i) = (l[i]?.map fun a => (n + i, f a (n + i))).toList := by
  induction l generalizing n i with
  | nil => rfl
  | cons a l ih =>
    cases i with
    | zero =>
      -- the numbers behind the first one are greater
      have hrest : ((l.zipIdx (n + 1)).map fun p => (p.2, f p.1 p.2)).filter (·.1 == n) = [] := by
        rw [List.filter_eq_nil_iff]
        simp only [List.mem_map, beq_iff_eq, forall_exists_index, and_imp]
        rintro _ ⟨b, k⟩ hb rfl
        have := List.le_snd_of_mem_zipIdx hb
        exact Nat.ne_of_gt this
      simp [List.zipIdx_cons, hrest]
    | succ i =>
      have hne : (n == n + (i + 1)) = false := beq_eq_false_iff_ne.2 (by omega)
      have hshift : n + (i + 1) = n + 1 + i := by omega
      rw [List.zipIdx_cons, List.map_cons, List.filter_cons_of_neg (by simp), hshift, ih]
      rfl

/-- what stands behind a handle in a list that is numbered from `n` on, where different numbers have different handles -/
theorem lookup_numbered {handle : Nat → Int} (hinj : Function.Injective handle) (f : α → β) (l : List α) (n i : Nat) :
    ((l.zipIdx n).map fun p => (handle p.2, f p.1)).lookup (handle (n + i)) = l[i]?.map f := by
  induction l generalizing n i with
  | nil => rfl
  | cons a l ih =>
    rw [List.zipIdx_cons, List.map_cons, List.lookup_cons]
    cases i with
    | zero => simp
    | succ i =>
      have hne : (handle (n + (i + 1)) == handle n) = false := beq_eq_false_iff_ne.2 fun h => by have := hinj h; omega
      have hshift : n + (i + 1) = n + 1 + i := by omega
      rw [hne, hshift]
      exact ih (n + 1) i

end Numbered

/-! ## The record of a population -/

section Recorded

open TaskRecord

variable {handle : Nat → Int}

theorem record_boundCalls (T : TaskRecord) (i : Nat) (bs : List Float) :
    T.noteAll handle (boundCalls i bs) = { T with bounds := T.bounds ++ (bs.zipIdx i).map fun p => (p.2, p.1, p.1) } := by
  induction bs generalizing T i with
  | nil => simp [noteAll, boundCalls]
  | cons b bs ih =>
    rw [boundCalls, noteAll, List.foldl_cons]
    refine (ih _ (i + 1)).trans ?_
    simp [note, List.zipIdx_cons]

/-- the rows from `i` on, where `i + 1` matrices came before -/
theorem record_rowCalls (T : TaskRecord) (dim : Value) (i : Nat) (tss : List (List (Triple Float)))
    (hT : T.matrices.length = i + 1) :
    T.noteAll handle (rowCalls handle dim i tss) =
      { T with
        matrices := T.matrices ++ (tss.zipIdx (i + 1)).map fun p => (handle p.2, dim, p.1)
        coefficients := T.coefficients ++ (tss.zipIdx i).map fun p => (p.2, handle (p.2 + 1), Scalar.one) } := by
  induction tss generalizing T i with
  | nil => simp [noteAll, rowCalls]
  | cons ts tss ih =>
    rw [rowCalls, noteAll, List.foldl_cons, List.foldl_cons]
    refine (ih _ (i + 1) (by simp [note, hT])).trans ?_
    simp [note, List.zipIdx_cons, hT]

theorem noteAll_append (T : TaskRecord) (cs cs' : List (Call Float)) :
    T.noteAll handle (cs ++ cs') = (T.noteAll handle cs).noteAll handle cs' := List.foldl_append

/-- the triples of the matrices of a program in their order of arrival -/
def Program.arrivals (P : Program Float) : List (List (Triple Float)) := P.fixed.triples :: P.constraints.map SymMatrix.triples

/-- **The record of a population.** -/
theorem record_population (handle : Nat → Int) (P : Program Float) :
    fresh.noteAll handle (P.population handle) =
      { rows := [P.constraints.length]
        blocks := [.ofInt P.dim]
        offsets := [P.offset]
        minimised := 1
        matrices := P.arrivals.zipIdx.map fun p => (handle p.2, .ofInt P.dim, p.1)
        objective := [(handle 0, Scalar.one)]
        bounds := P.bounds.zipIdx.map fun p => (p.2, p.1, p.1)
        coefficients := (P.constraints.map SymMatrix.triples).zipIdx.map fun p => (p.2, handle (p.2 + 1), Scalar.one) } := by
  have hpreamble : fresh.noteAll handle
      (preamble handle (.ofInt P.dim) (P.constraints.map SymMatrix.triples).length P.offset P.fixed.triples) =
      ⟨[P.constraints.length], [.ofInt P.dim], [P.offset], 1, [(handle 0, .ofInt P.dim, P.fixed.triples)],
        [(handle 0, Scalar.one)], [], []⟩ := by
    rw [List.length_map]
    rfl
  rw [Program.population, populationOf, noteAll_append, noteAll_append, hpreamble, record_boundCalls, record_rowCalls _ _ _ _ rfl]
  simp [Program.arrivals, List.zipIdx_cons]

end Recorded

/-! ## What is found in it -/

/-- the record of a task that a program is handed to -/
def Program.record (handle : Nat → Int) (P : Program Float) : TaskRecord := TaskRecord.fresh.noteAll handle (P.population handle)

section Found

variable {handle : Nat → Int} (P : Program Float)

theorem boundsAt_record (i : Nat) : (P.record handle).boundsAt i = (P.bounds[i]?.map fun b => (i, b, b)).toList := by
  rw [Program.record, record_population, TaskRecord.boundsAt]
  have h := filter_numbered (fun b _ => (b, b)) P.bounds 0 i
  rwa [Nat.zero_add] at h

theorem coefficientsAt_record (i : Nat) :
    (P.record handle).coefficientsAt i = (P.constraints[i]?.map fun _ => (i, handle (i + 1), Scalar.one)).toList := by
  rw [Program.record, record_population, TaskRecord.coefficientsAt]
  have h := filter_numbered (fun _ i => (handle (i + 1), (Scalar.one : Float))) (P.constraints.map SymMatrix.triples) 0 i
  rw [Nat.zero_add] at h
  rw [h, List.getElem?_map, Option.map_map]
  rfl

theorem behind_record (hinj : Function.Injective handle) (k : Nat) :
    (P.record handle).behind (handle k) = P.arrivals[k]?.map fun ts => (.ofInt P.dim, ts) := by
  rw [Program.record, record_population, TaskRecord.behind]
  have h := lookup_numbered hinj (fun ts : List (Triple Float) => (Value.ofInt P.dim, ts)) P.arrivals 0 k
  rwa [Nat.zero_add] at h

theorem matrices_record (handle : Nat → Int) (P : Program Float) :
    (P.record handle).matrices.map (·.1) = (List.range (P.constraints.length + 1)).map handle := by
  have hsnd : P.arrivals.zipIdx.map (·.2) = List.range (P.constraints.length + 1) := by
    rw [List.zipIdx_map_snd, List.range_eq_range', Program.arrivals, List.length_cons, List.length_map]
  rw [Program.record, record_population, ← hsnd, List.map_map, List.map_map]
  rfl

/-- every matrix is referred to, in the order of arrival -/
theorem references_record (handle : Nat → Int) (P : Program Float) :
    (P.record handle).references = (P.record handle).matrices.map (·.1) := by
  have hsnd : (P.constraints.map SymMatrix.triples).zipIdx.map (·.2) = List.range P.constraints.length := by
    rw [List.zipIdx_map_snd, List.range_eq_range', List.length_map]
  rw [matrices_record, Program.record, record_population, TaskRecord.references, List.range_succ_eq_map, ← hsnd]
  simp only [List.map_cons, List.map_map, List.map_nil, List.singleton_append]
  rfl

/-- a matrix of the dimension of the program is read off its triples -/
theorem matrix_of_behind {T : TaskRecord} {k : Int} {A : SymMatrix Float} (h : T.behind k = some (.ofInt A.dim, A.triples)) :
    T.matrix k = .ok A := by
  rw [TaskRecord.matrix, h]
  exact A.ofTriples_triples

theorem matrix_record_fixed (hinj : Function.Injective handle) : (P.record handle).matrix (handle 0) = .ok P.fixed := by
  apply matrix_of_behind
  rw [behind_record P hinj, P.fixed_dim]
  rfl

theorem matrixAt_record (hinj : Function.Injective handle) {i : Nat} (hi : i < P.constraints.length) :
    (P.record handle).matrixAt i = .ok P.constraints[i] := by
  rw [TaskRecord.matrixAt, coefficientsAt_record, List.getElem?_eq_getElem hi]
  apply matrix_of_behind
  rw [behind_record P hinj, P.constraint_dim _ (List.getElem_mem hi)]
  simp [Program.arrivals, hi]

theorem boundAt_record {i : Nat} (hi : i < P.bounds.length) : (P.record handle).boundAt i = .ok P.bounds[i] := by
  rw [TaskRecord.boundAt, boundsAt_record, List.getElem?_eq_getElem hi]
  rfl

/-- **The program is read off its record.** -/
theorem program_record (hinj : Function.Injective handle) : (P.record handle).program = .ok P := by
  have hmatrices : (List.range P.constraints.length).mapM (P.record handle).matrixAt = .ok P.constraints := by
    rw [Outcome.mapM_ok, List.forall₂_iff_get]
    refine ⟨List.length_range, fun i h₁ h₂ => ?_⟩
    simpa using matrixAt_record P hinj h₂
  have hbounds : (List.range P.constraints.length).mapM (P.record handle).boundAt = .ok P.bounds := by
    rw [Outcome.mapM_ok, List.forall₂_iff_get]
    refine ⟨by rw [List.length_range, P.length_eq], fun i h₁ h₂ => ?_⟩
    simpa using boundAt_record P h₂
  have hprogram : (P.record handle).program = (do
      let C ← (P.record handle).matrix (handle 0)
      let As ← (List.range P.constraints.length).mapM (P.record handle).matrixAt
      let bs ← (List.range P.constraints.length).mapM (P.record handle).boundAt
      Program.ofParts P.dim (.ok P.offset) (some C) (.ok (As.map some)) (.ok bs)) := by
    rw [Program.record, record_population]
    rfl
  rw [hprogram, matrix_record_fixed P hinj, hmatrices, hbounds]
  exact P.ofParts_parts

end Found

/-! ## Populating a task -/

/-- the record of a task that is fresh before an instance populates it -/
def recorded (S : Solver) (offered : Option Codes) (I : Instance) (h : History) : TaskRecord :=
  TaskRecord.fresh.noteAll S.handle ((I.populate S offered h).2.calls.drop h.calls.length)

section Populate

variable {S : Solver} {offered : Option Codes} {codes : Codes} {h : History} {P : Program Float}

/-- whatever the solver refuses, the calls that are made are the first ones of the population -/
theorem populate_begins (P : Program Float) (settings : Settings) (h : History) :
    ∃ made, (Instance.populate S offered ⟨.plain P, settings⟩ h).2.calls = h.calls ++ made ∧ made <+: P.population S.handle := by
  by_cases hloaded : ∃ codes, h.linkage.resolve offered = .loaded codes
  · obtain ⟨codes, hl⟩ := hloaded
    have hpopulate : Runs S offered codes (Instance.populate S offered ⟨.plain P, settings⟩) ((P.population S.handle).map .call)
        fun _ => True := runs_populate
    obtain ⟨hcalls, -, -⟩ := hpopulate h hl
    obtain ⟨hbegins, -⟩ := made_begins S h.calls ((P.population S.handle).map .call)
    rw [callsOf_map_call] at hbegins
    exact ⟨_, hcalls, hbegins⟩
  · -- without the package nothing is called
    have hmissing : ∀ codes, h.linkage.resolve offered ≠ .loaded codes := fun codes hl => hloaded ⟨codes, hl⟩
    obtain ⟨hout, hcalls⟩ := requirePackage_of_missing hmissing
    rw [Instance.populate, Activity.bind_of_error hout]
    exact ⟨[], hcalls.trans (List.append_nil _).symm, List.nil_prefix⟩

/-- a solver that accepts the calls of a population gets all of them -/
theorem populate_calls (settings : Settings) (haccepts : ∀ past, ∀ c ∈ P.population S.handle, S.refuses past c = none)
    (hl : h.linkage.resolve offered = .loaded codes) :
    (Instance.populate S offered ⟨.plain P, settings⟩ h).1 = .ok () ∧
      (Instance.populate S offered ⟨.plain P, settings⟩ h).2.calls = h.calls ++ P.population S.handle := by
  have hpopulate : Runs S offered codes (Instance.populate S offered ⟨.plain P, settings⟩) ((P.population S.handle).map .call)
      fun _ => True := runs_populate
  obtain ⟨hcalls, -, hout⟩ := hpopulate h hl
  have hprogress : progress S h.calls ((P.population S.handle).map .call) = ⟨P.population S.handle, none, none⟩ := by
    rw [← List.append_nil ((P.population S.handle).map Step.call), progress_map_call haccepts, progress_nil, List.append_nil]
  rw [hprogress] at hcalls hout
  obtain ⟨b, hb, -⟩ := hout
  exact ⟨hb, hcalls.trans (congrArg (h.calls ++ ·) (List.append_nil _))⟩

theorem recorded_eq (settings : Settings) (haccepts : ∀ past, ∀ c ∈ P.population S.handle, S.refuses past c = none)
    (hl : h.linkage.resolve offered = .loaded codes) : recorded S offered ⟨.plain P, settings⟩ h = P.record S.handle := by
  rw [recorded, (populate_calls settings haccepts hl).2, List.drop_left]
  rfl

/-- **A populated task determines the program.** Let a solver accept the calls of the population and give different handles to
different matrices, as consecutive handles are. The record of the fresh task then holds every part of the program once: one block, and
behind the handle in the objective, and behind the one in each row, the triples of the matrix that belongs there. The program can be
read off the record, so different programs leave different records. -/
theorem population_determines_program (P : Program Float) (settings : Settings) (S : Solver) (offered : Option Codes) (codes : Codes)
    (h : History) (hinj : Function.Injective S.handle) (haccepts : ∀ past, ∀ c ∈ P.population S.handle, S.refuses past c = none)
    (hl : h.linkage.resolve offered = .loaded codes) :
    let T := recorded S offered ⟨.plain P, settings⟩ h
    (Instance.populate S offered ⟨.plain P, settings⟩ h).1 = .ok () ∧
      T.rows = [P.numConstraints] ∧ T.blocks = [.ofInt P.dim] ∧ T.offsets = [P.offset] ∧ T.minimised = 1 ∧
      T.matrices.length = P.numConstraints + 1 ∧ (∀ M ∈ T.matrices, T.references.count M.1 = 1) ∧
      (∃ k, T.objective = [(k, 1.0)] ∧ T.behind k = some (.ofInt P.dim, P.fixed.triples)) ∧
      (∀ i A, P.constraints[i]? = some A →
        (∃ b, P.bounds[i]? = some b ∧ T.boundsAt i = [(i, b, b)]) ∧
          ∃ k, T.coefficientsAt i = [(i, k, 1.0)] ∧ T.behind k = some (.ofInt P.dim, A.triples)) ∧
      (∀ i, P.numConstraints ≤ i → T.boundsAt i = [] ∧ T.coefficientsAt i = []) ∧
      T.program = .ok P ∧
      ∀ (Q : Program Float) (settings' : Settings) (S' : Solver) (offered' : Option Codes) (codes' : Codes) (h' : History),
        Function.Injective S'.handle → (∀ past, ∀ c ∈ Q.population S'.handle, S'.refuses past c = none) →
          h'.linkage.resolve offered' = .loaded codes' → recorded S' offered' ⟨.plain Q, settings'⟩ h' = T → Q = P := by
  intro T
  have hT : T = P.record S.handle := recorded_eq settings haccepts hl
  have hrecord := record_population S.handle P
  have hmatrices := matrices_record S.handle P
  have hreferences := references_record S.handle P
  refine ⟨(populate_calls settings haccepts hl).1, ?_, ?_, ?_, ?_, ?_, fun M hM => ?_, ⟨S.handle 0, ?_, ?_⟩, fun i A hA => ⟨?_, ?_⟩,
    fun i hi => ⟨?_, ?_⟩, ?_, ?_⟩
  · rw [hT, Program.record, hrecord]; rfl
  · rw [hT, Program.record, hrecord]
  · rw [hT, Program.record, hrecord]
  · rw [hT, Program.record, hrecord]
  · rw [hT, ← List.length_map (·.1), hmatrices, List.length_map, List.length_range]; rfl
  · rw [hT] at hM ⊢
    have hmem := List.mem_map_of_mem (f := (·.1)) hM
    rw [← hreferences] at hmem
    refine List.count_eq_one_of_mem ?_ hmem
    rw [hreferences, hmatrices]
    exact List.nodup_range.map hinj
  · rw [hT, Program.record, hrecord]; rfl
  · rw [hT, behind_record P hinj]; rfl
  · obtain ⟨hi, -⟩ := List.getElem?_eq_some_iff.1 hA
    have hb : i < P.bounds.length := by rw [P.length_eq]; exact hi
    refine ⟨P.bounds[i], List.getElem?_eq_getElem hb, ?_⟩
    rw [hT, boundsAt_record, List.getElem?_eq_getElem hb]
    rfl
  · refine ⟨S.handle (i + 1), ?_, ?_⟩
    · rw [hT, coefficientsAt_record, hA]; rfl
    · rw [hT, behind_record P hinj]
      simp [Program.arrivals, hA]
  · rw [hT, boundsAt_record, List.getElem?_eq_none (by rw [P.length_eq]; exact hi)]; rfl
  · rw [hT, coefficientsAt_record, List.getElem?_eq_none hi]; rfl
  · rw [hT]; exact program_record P hinj
  · intro Q settings' S' offered' codes' h' hinj' haccepts' hl' hsame
    have hQ := program_record Q hinj'
    rw [← recorded_eq settings' haccepts' hl', hsame, hT, program_record P hinj] at hQ
    exact (Except.ok.inj hQ).symm

/-- a solver that refuses no call; the first matrix gets the handle five -/
def acceptingSolver : Solver where
  refuses := fun _ _ => none
  handle := fun k => 5 + k
  code := .error .missingEntry
  primal := .error .missingEntry
  dual := .error .missingEntry
  objective := .error .missingEntry
  messages := []
  started := .ofFloat 0.0
  finished := .ofFloat 1.0

/-- the row of a program with one constraint leads to the mixed cell, not to the fixed matrix -/
theorem population_determines_program_mixed :
    let T := recorded acceptingSolver (some []) ⟨.plain mixedDoubles, .standard⟩ ⟨.unresolved, [], []⟩
    T.boundsAt 0 = [(0, 2.0, 2.0)] ∧
      (∃ k, T.coefficientsAt 0 = [(0, k, 1.0)] ∧ T.behind k = some (.ofInt 2, [⟨1, 0, 1.0⟩])) ∧
      T.program = .ok mixedDoubles := by
  intro T
  have hinj : Function.Injective acceptingSolver.handle := fun i j hij => by simpa [acceptingSolver] using hij
  obtain ⟨-, -, -, -, -, -, -, -, hrows, -, hprogram, -⟩ := population_determines_program mixedDoubles .standard acceptingSolver
    (some []) [] ⟨.unresolved, [], []⟩ hinj (fun _ _ _ => rfl) rfl
  obtain ⟨⟨b, hb, hbounds⟩, k, hk, hbehind⟩ := hrows 0 _ rfl
  cases hb
  exact ⟨hbounds, ⟨k, hk, hbehind⟩, hprogram⟩

end Populate

end MomentProgram
