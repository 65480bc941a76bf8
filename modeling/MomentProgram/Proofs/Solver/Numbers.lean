/-
Which numbers the solver is handed.

A program is handed over as its offset, its bounds, weights of one, and the triples of its matrices (`cases_of_mem_population`). Offset and
bounds are finite by the type of a program, which says nothing of its matrices. The matrices of an encoded relaxation hold phases with a
sign, and a phase is a number but it can be infinite: its mirrored one is equal to it then, so the check for symmetry lets it pass. The sign
changes nothing about that (`isFinite_neg`), and every phase of a monomial is handed over in one of the two cells that mirror each other. So
what a solver is handed is finite exactly if all phases are.

- `populated_numbers`: every number of the calls that hand an encoded relaxation over.
- `populated_numbers_corner`: finite phases.
- `populated_infinite`: an infinite phase that reaches a solver.
-/
import Mathlib
import MomentProgram.Input
import MomentProgram.Proofs.Gram.Tags
import MomentProgram.Proofs.Number.Finite
import MomentProgram.Proofs.Program.Refusal
import MomentProgram.Proofs.Solver.Population
import MomentProgram.Proofs.Value.Gram

namespace MomentProgram

/-! ## Stored phases -/

theorem isFinite_storedPhase (k : ℕ) (x : Float) : isFiniteDouble (storedPhase k x) = isFiniteDouble x := by
  unfold storedPhase
  split_ifs
  · rfl
  · exact Double.isFinite_neg x

theorem isNaN_storedPhase (k : ℕ) {x : Float} (h : x.isNaN = false) : (storedPhase k x).isNaN = false := by
  unfold storedPhase
  split_ifs
  · exact h
  · exact Double.isNaN_neg h

/-! ## The numbers of a call -/

namespace Call

/-- the triples of the matrix that a call hands over -/
def triples : Call Float → List (Triple Float)
  | .appendMatrix _ ts => ts
  | _ => []

/-- the numbers that a call hands over -/
def numbers : Call Float → List Float
  | .putOffset offset => [offset]
  | .appendMatrix _ ts => ts.map (·.value)
  | .putObjective _ weight => [weight]
  | .putBound _ lower upper => [lower, upper]
  | .putRow _ _ weight => [weight]
  | _ => []

end Call

theorem mem_boundCalls {bs : List Float} {i : ℕ} {c : Call Float} (h : c ∈ boundCalls i bs) : ∃ row, ∃ b ∈ bs, c = .putBound row b b := by
  induction bs generalizing i with
  | nil => exact absurd h List.not_mem_nil
  | cons b bs ih =>
    rcases List.mem_cons.1 h with rfl | h
    · exact ⟨i, b, List.mem_cons_self, rfl⟩
    · obtain ⟨row, b', hb', rfl⟩ := ih h
      exact ⟨row, b', List.mem_cons_of_mem b hb', rfl⟩

theorem mem_rowCalls {handle : ℕ → Int} {dim : Value} {tss : List (List (Triple Float))} {i : ℕ} {c : Call Float}
    (h : c ∈ rowCalls handle dim i tss) : (∃ ts ∈ tss, c = .appendMatrix dim ts) ∨ ∃ row k, c = .putRow row k 1.0 := by
  induction tss generalizing i with
  | nil => exact absurd h List.not_mem_nil
  | cons ts tss ih =>
    rcases List.mem_cons.1 h with rfl | h
    · exact .inl ⟨ts, List.mem_cons_self, rfl⟩
    rcases List.mem_cons.1 h with rfl | h
    · exact .inr ⟨i, _, rfl⟩
    rcases ih h with ⟨ts', hts', rfl⟩ | hrow
    · exact .inl ⟨ts', List.mem_cons_of_mem ts hts', rfl⟩
    · exact .inr hrow

theorem appendMatrix_mem_rowCalls {handle : ℕ → Int} {dim : Value} {tss : List (List (Triple Float))} {ts : List (Triple Float)}
    (h : ts ∈ tss) (i : ℕ) : Call.appendMatrix dim ts ∈ rowCalls handle dim i tss := by
  induction tss generalizing i with
  | nil => exact absurd h List.not_mem_nil
  | cons ts' tss ih =>
    rcases List.mem_cons.1 h with rfl | h
    · exact List.mem_cons_self
    · exact List.mem_cons_of_mem _ (List.mem_cons_of_mem _ (ih h (i + 1)))

namespace Program

variable {P : Program Float} {handle : ℕ → Int} {c : Call Float}

/-- **A call hands over a matrix of the program, or no triples and nothing but offset, bounds and ones.** -/
theorem cases_of_mem_population (h : c ∈ P.population handle) :
    (∃ A ∈ P.matrices, c = .appendMatrix (.ofInt P.dim) A.triples) ∨
      c.triples = [] ∧ ∀ x ∈ c.numbers, x = 1.0 ∨ x ∈ P.offset :: P.bounds := by
  rcases List.mem_append.1 h with h | hrow
  · rcases List.mem_append.1 h with hpreamble | hbound
    · simp only [preamble, List.mem_cons, List.not_mem_nil, or_false] at hpreamble
      rcases hpreamble with rfl | rfl | rfl | rfl | rfl | rfl
      · exact .inr ⟨rfl, fun x hx => absurd hx List.not_mem_nil⟩
      · exact .inr ⟨rfl, fun x hx => absurd hx List.not_mem_nil⟩
      · exact .inr ⟨rfl, fun x hx => .inr (List.mem_singleton.1 hx ▸ List.mem_cons_self)⟩
      · exact .inr ⟨rfl, fun x hx => absurd hx List.not_mem_nil⟩
      · exact .inl ⟨P.fixed, List.mem_cons_self, rfl⟩
      · exact .inr ⟨rfl, fun x hx => .inl (List.mem_singleton.1 hx)⟩
    · obtain ⟨row, b, hb, rfl⟩ := mem_boundCalls hbound
      refine .inr ⟨rfl, fun x hx => .inr ?_⟩
      have hxb : x = b := by simpa [Call.numbers] using hx
      rw [hxb]
      exact List.mem_cons_of_mem _ hb
  · rcases mem_rowCalls hrow with ⟨ts, hts, rfl⟩ | ⟨row, k, rfl⟩
    · obtain ⟨A, hA, rfl⟩ := List.mem_map.1 hts
      exact .inl ⟨A, List.mem_cons_of_mem _ hA, rfl⟩
    · exact .inr ⟨rfl, fun x hx => .inl (List.mem_singleton.1 hx)⟩

/-- every matrix of a program is handed over -/
theorem appendMatrix_mem_population (handle : ℕ → Int) {A : SymMatrix Float} (hA : A ∈ P.matrices) :
    Call.appendMatrix (.ofInt P.dim) A.triples ∈ P.population handle := by
  rcases List.mem_cons.1 hA with rfl | hA
  · refine List.mem_append_left _ (List.mem_append_left _ ?_)
    simp [preamble]
  · exact List.mem_append_right _ (appendMatrix_mem_rowCalls (List.mem_map_of_mem hA) 0)

/-- what is handed over beside the matrices is finite -/
theorem isFinite_of_triples_eq_nil (h : c ∈ P.population handle) (hnone : c.triples = []) {x : Float} (hx : x ∈ c.numbers) :
    isFiniteDouble x = true := by
  rcases cases_of_mem_population h with ⟨A, hA, rfl⟩ | ⟨-, hnumbers⟩
  · have hempty : A.triples = [] := hnone
    rw [Call.numbers, hempty] at hx
    exact absurd hx List.not_mem_nil
  · rcases hnumbers x hx with rfl | hx
    · decide
    · exact P.values_finite x hx

end Program

/-! ## The numbers of an encoded relaxation -/

namespace Encodes

variable {κ : Type} {toReal : κ → Outcome Float} {R : Relaxation Float κ} {P : Program Float} {handle : ℕ → Int}

/-- **A triple is handed over with the phase of its cell,** as the matrix of its monomial stores it. -/
theorem exists_cell_of_handed (h : Encodes toReal R P) {c : Call Float} (hc : c ∈ P.population handle) {t : Triple Float}
    (ht : t ∈ c.triples) : ∃ (k : ℕ) (row col : Fin R.size), t = ⟨row, col, storedPhase k (R.gram.phases.get row col)⟩ := by
  rcases Program.cases_of_mem_population hc with ⟨A, hA, rfl⟩ | ⟨hnone, -⟩
  · obtain ⟨k, hk, rfl⟩ := List.mem_iff_getElem.1 hA
    have htriple : t ∈ P.matrices[k].triples := ht
    rw [h.triples_matrices hk, mem_lowerTriples] at htriple
    obtain ⟨row, col, -, -, rfl⟩ := htriple
    exact ⟨k, row, col, by rw [matrixScale_mul]⟩
  · rw [hnone] at ht
    exact absurd ht List.not_mem_nil

/-- **Every phase of a monomial on or below the diagonal is handed over.** -/
theorem exists_handed (h : Encodes toReal R P) (handle : ℕ → Int) {row col : Fin R.size} {k : ℕ} (hle : col ≤ row)
    (htag : R.gram.tags.get row col = k) :
    ∃ c ∈ P.population handle, storedPhase k (R.gram.phases.get row col) ∈ c.numbers := by
  have hk : k < P.matrices.length := h.lt_of_tag htag
  have hvalues := h.valuesAt_matrices hk hle
  rw [if_pos htag] at hvalues
  have hmem : storedPhase k (R.gram.phases.get row col) ∈ P.matrices[k].valuesAt row col := by
    rw [hvalues]
    exact List.mem_singleton_self _
  rw [SymMatrix.mem_valuesAt] at hmem
  exact ⟨_, P.appendMatrix_mem_population handle (List.getElem_mem hk), List.mem_map.2 ⟨_, hmem, rfl⟩⟩

/-- **What is handed over is finite exactly if all phases are.** -/
theorem handed_finite_iff (h : Encodes toReal R P) :
    (∀ c ∈ P.population handle, ∀ x ∈ c.numbers, isFiniteDouble x = true) ↔
      ∀ row col, isFiniteDouble (R.gram.phases.get row col) = true := by
  constructor
  · intro hall row col
    have hlower : ∀ row col : Fin R.size, col ≤ row → isFiniteDouble (R.gram.phases.get row col) = true := by
      intro row col hle
      rcases R.gram.tag_cases row col with hzero | ⟨k, -, htag⟩
      · exact Double.isFinite_of_isZero (.inl (R.gram.cleared row col hzero))
      · obtain ⟨c, hc, hx⟩ := h.exists_handed handle hle htag
        rw [← isFinite_storedPhase k]
        exact hall c hc _ hx
    rcases le_total col row with hle | hle
    · exact hlower row col hle
    · -- above the diagonal the phase is that of the mirrored cell, or both are zero
      rcases R.gram.phase_mirrored row col with hsame | ⟨hzero, -⟩
      · rw [hsame]
        exact hlower col row hle
      · exact Double.isFinite_of_isZero hzero
  · intro hphases c hc x hx
    rcases Program.cases_of_mem_population hc with ⟨A, hA, rfl⟩ | ⟨hnone, -⟩
    · obtain ⟨t, ht, rfl⟩ := List.mem_map.1 hx
      obtain ⟨k, row, col, rfl⟩ := h.exists_cell_of_handed hc ht
      rw [isFinite_storedPhase]
      exact hphases row col
    · exact Program.isFinite_of_triples_eq_nil hc hnone hx

end Encodes

/-- **The numbers of a populated task.** For every relaxation that is encoded, whatever the conversion of its coefficients, and every solver:
populating a task makes calls of the population of the program, in its order and from its start. No number of these calls is a NaN. What is
handed over beside the matrices, that is offset, bounds and weights, is finite. A triple stands in the cell of a phase and is finite exactly
if the phase is. So all numbers are finite exactly if all phases are. -/
theorem populated_numbers {κ : Type} (toReal : κ → Outcome Float) (R : Relaxation Float κ) (P : Program Float)
    (hP : R.surface.encode toReal = .ok P) (S : Solver) (offered : Option Codes) (settings : Settings) (h : History) :
    (∃ made, (Instance.populate S offered ⟨.plain P, settings⟩ h).2.calls = h.calls ++ made ∧ made <+: P.population S.handle) ∧
      (∀ c ∈ P.population S.handle, ∀ x ∈ c.numbers, x.isNaN = false) ∧
      (∀ c ∈ P.population S.handle, c.triples = [] → ∀ x ∈ c.numbers, isFiniteDouble x = true) ∧
      (∀ c ∈ P.population S.handle, ∀ t ∈ c.triples, ∃ row col : Fin R.size, t.row = row ∧ t.col = col ∧
        isFiniteDouble t.value = isFiniteDouble (R.gram.phases.get row col)) ∧
      ((∀ c ∈ P.population S.handle, ∀ x ∈ c.numbers, isFiniteDouble x = true) ↔
        ∀ row col, isFiniteDouble (R.gram.phases.get row col) = true) := by
  have hencodes := Relaxation.encode_ok hP
  refine ⟨populate_begins P settings h, fun c hc x hx => ?_, fun c hc hnone x hx => Program.isFinite_of_triples_eq_nil hc hnone hx,
    fun c hc t ht => ?_, hencodes.handed_finite_iff⟩
  · rcases Program.cases_of_mem_population hc with ⟨A, hA, rfl⟩ | ⟨hnone, -⟩
    · obtain ⟨t, ht, rfl⟩ := List.mem_map.1 hx
      obtain ⟨k, row, col, rfl⟩ := hencodes.exists_cell_of_handed hc ht
      exact isNaN_storedPhase k (R.gram.isNaN_phase row col)
    · exact Double.isNaN_of_finite (Program.isFinite_of_triples_eq_nil hc hnone hx)
  · obtain ⟨k, row, col, rfl⟩ := hencodes.exists_cell_of_handed hc ht
    exact ⟨row, col, rfl, rfl, isFinite_storedPhase k _⟩

/-- a fresh task of a solver that refuses nothing gets the whole population -/
theorem populate_accepting (P : Program Float) :
    (Instance.populate acceptingSolver (some []) ⟨.plain P, .standard⟩ ⟨.unresolved, [], []⟩).2.calls =
      P.population acceptingSolver.handle :=
  (populate_calls (h := ⟨.unresolved, [], []⟩) .standard (fun _ _ _ => rfl) rfl).2

/-- the phases 1, -2 and 0 are finite, and so is everything that is handed over -/
theorem populated_numbers_corner : ∃ P, cornerRelaxation.surface.encode .ok = .ok P ∧
    (Instance.populate acceptingSolver (some []) ⟨.plain P, .standard⟩ ⟨.unresolved, [], []⟩).2.calls = P.population acceptingSolver.handle ∧
    ∀ c ∈ P.population acceptingSolver.handle, ∀ x ∈ c.numbers, isFiniteDouble x = true := by
  obtain ⟨P, hP⟩ := Outcome.exists_ok (x := cornerRelaxation.surface.encode .ok) (by decide)
  obtain ⟨-, -, -, -, hfinite⟩ := populated_numbers .ok cornerRelaxation P hP acceptingSolver (some []) .standard ⟨.unresolved, [], []⟩
  exact ⟨P, hP, populate_accepting P, hfinite.2 (by decide)⟩

/-- the phases of the identity, of a monomial of infinite phase, and of a zero cell -/
def infinitePhases : Grid 2 Float := ⟨#v[1.0, 1.0 / 0.0, 1.0 / 0.0, 0.0]⟩

/-- **An infinite phase reaches the solver.** It equals its mirrored one, so the phases are accepted, and what is finite is checked in offset
and bounds only. -/
theorem populated_infinite : ∃ (g : Gram 2 Float) (R : Relaxation Float Value) (P : Program Float),
    Gram.ofValues (.ofWords [2, 2] zeroCellTags.toList) (some (.ofDoubles [2, 2] infinitePhases.toList)) = .ok ⟨2, g⟩ ∧
      Relaxation.ofParts g (some [.ofFloat 3.0, .ofFloat 0.5]) = .ok R ∧ R.surface.encode realValue = .ok P ∧
      ∃ c ∈ (Instance.populate acceptingSolver (some []) ⟨.plain P, .standard⟩ ⟨.unresolved, [], []⟩).2.calls, ∃ x ∈ c.numbers,
        isFiniteDouble x = false := by
  -- tags and phases are accepted, and the phases kept
  have haccepted : (Gram.ofTags zeroCellTags (some (.ok (.ofGrid infinitePhases)))).map
      (fun g : Gram 2 Float => (g.identityFirst, isFiniteDouble (g.phases.get 1 0))) = .ok (true, false) := by decide +kernel
  obtain ⟨g, hg, hpair⟩ := Outcome.map_ok.1 haccepted
  obtain ⟨hfirst, hinfinite⟩ := Prod.mk.inj hpair
  have htags : g.tags = zeroCellTags := Gram.tags_of_ofTags hg
  have hmade : Gram.ofValues (.ofWords [2, 2] zeroCellTags.toList) (some (.ofDoubles [2, 2] infinitePhases.toList)) = .ok ⟨2, g⟩ := by
    refine Gram.ofValues_eq_ok.2 ⟨?_, ?_⟩
    · rw [htags]
      exact Value.toTags_words (by decide)
    · rw [htags, Option.map_some, Value.toTensor_doubles_grid]
      exact hg
  -- both coefficients are finite, so there is a program
  let objective : List Value := [.ofFloat 3.0, .ofFloat 0.5]
  have hlength : objective.length = g.monomials := by
    rw [Gram.monomials, htags]
    decide
  let R : Relaxation Float Value := ⟨2, g, objective, hlength⟩
  have hvalues : List.Forall₂ (fun c x => realValue c = .ok x) R.objective [3.0, 0.5] := .cons rfl (.cons rfl .nil)
  have hsize : R.size ≤ 2 ^ 32 := Nat.le_of_ble_eq_true rfl
  obtain ⟨P, hP, -⟩ := Relaxation.encode_of_finite hfirst (R.hasMatrices hsize) hvalues (by decide)
  -- cell (1, 0) has the monomial of infinite phase
  have hencodes : Encodes realValue R P := Relaxation.encode_ok hP
  have htag : R.gram.tags.get (1 : Fin 2) (0 : Fin 2) = (1 : ℕ) := by
    show g.tags.get 1 0 = 1
    rw [htags]
    decide
  have hle : (0 : Fin 2) ≤ (1 : Fin 2) := by decide
  obtain ⟨c, hc, hx⟩ := hencodes.exists_handed acceptingSolver.handle hle htag
  rw [← populate_accepting] at hc
  refine ⟨g, R, P, hmade, Relaxation.ofParts_of_length hlength, hP, c, hc, _, hx, ?_⟩
  rw [isFinite_storedPhase]
  exact hinfinite

end MomentProgram
