/-
What an encoding comes to, and which refusal comes first.

Up to size 2^32 no matrix of a Gram matrix is refused (`SymMatrix.ofTriples_lowerTriples`), there are as many as monomials, and all have
the size of the Gram matrix; so an encoding that starts with the identity only has to convert the coefficients of the monomials
1, 2, …, then that of the identity, and to check that all are finite (`Relaxation.encode_eq`). Whatever is refused is one of
these, in this order: the identity, the first coefficient that has no value, a value that is not finite.

- `encoding_verdict`: the refusal of every relaxation that is refused, and the program of every other one.
- `encoding_verdict_order`: two coefficients without a value, the infinite one, and the one that is accepted.
-/
import Mathlib
import MomentProgram.Proofs.Gram
import MomentProgram.Proofs.Program.Partition
import MomentProgram.Proofs.Symmetric.Keys
import MomentProgram.Value.Coefficient

namespace MomentProgram

namespace Relaxation

variable {κ : Type} {toReal : κ → Outcome Float} {R : Relaxation Float κ}

/-- the cells of every monomial make a matrix -/
def HasMatrices (R : Relaxation Float κ) : Prop := ∀ k < R.gram.monomials, ∃ A, R.gram.lowerTriangular k (matrixScale k) = .ok A

/-- up to size 2^32 they always do -/
theorem hasMatrices (R : Relaxation Float κ) (hsize : R.size ≤ 2 ^ 32) : R.HasMatrices := fun _ _ =>
  SymMatrix.ofTriples_lowerTriples hsize _ _

/-- **What is left of an encoding that starts with the identity:** the coefficients are converted, that of the identity last, and make a
program with matrices that fit. -/
theorem encode_eq (toReal : κ → Outcome Float) (hfirst : R.gram.identityFirst = true) (hmatrices : R.HasMatrices) :
    ∃ c rest, ∃ (C : SymMatrix Float) (As : List (SymMatrix Float)), R.objective = c :: rest ∧
      C.dim = R.size ∧ (∀ A ∈ As, A.dim = R.size) ∧ rest.length = As.length ∧
      R.surface.encode toReal = (rest.mapM toReal).bind fun bs => (toReal c).bind fun x =>
        Program.ofParts R.size (.ok x) (some C) (.ok (As.map some)) (.ok bs) := by
  obtain ⟨-, hmonomials⟩ := R.gram.pos_of_identityFirst hfirst
  have hlength : R.objective.length = R.gram.monomials := R.length_eq
  obtain ⟨c, rest, hcons⟩ := List.exists_cons_of_length_pos (hlength ▸ hmonomials)
  have hcount : rest.length + 1 = R.gram.monomials := by rw [← hlength, hcons, List.length_cons]
  obtain ⟨C, hC⟩ := hmatrices 0 hmonomials
  have hconverted : ∀ i ∈ List.range rest.length, ∃ A, R.gram.lowerTriangular ((i + 1 : Nat) : Int) Surface.constraintScale = .ok A := by
    intro i hi
    have hi := List.mem_range.1 hi
    exact hmatrices (i + 1) (by omega)
  obtain ⟨As, hAs⟩ := Outcome.exists_forall₂_ok hconverted
  have hconstraints : ((List.range rest.length).mapM fun i => R.surface.constraint (i + 1)) = .ok (As.map some) := by
    rw [Outcome.mapM_ok, List.forall₂_map_right_iff]
    exact hAs.imp fun i A hA => Outcome.map_ok.2 ⟨A, hA, rfl⟩
  have hdims : ∀ A ∈ As, A.dim = R.size := by
    intro A hA
    obtain ⟨i, -, hi⟩ := Outcome.exists_related hAs hA
    exact SymMatrix.dim_tagged hi
  refine ⟨c, rest, C, As, hcons, SymMatrix.dim_tagged hC, hdims, by simpa using hAs.length_eq, ?_⟩
  have hfixed : R.surface.fixed = .ok (some C) := Outcome.map_ok.2 ⟨C, hC, rfl⟩
  have hcount : ¬ ((c :: rest).length : Int) ≠ R.surface.monomials := by
    rw [← hcons, hlength]
    exact not_not.2 rfl
  have hidentity : ¬ R.surface.identityFirst = false := by
    show ¬ R.gram.identityFirst = false
    rw [hfirst]
    decide
  have hobjective : R.surface.objective = some (c :: rest) := congrArg some hcons
  rw [Surface.encode, if_neg hidentity, hobjective]
  simp only
  rw [if_neg hcount, Surface.partsOf, hfixed]
  simp only [List.length_cons, Nat.add_sub_cancel, hconstraints]
  rw [Surface.boundsOf, Surface.offsetOf]
  simp only [List.drop_one, List.tail_cons]
  cases rest.mapM toReal with
  | error e => rfl
  | ok bs =>
    cases toReal c with
    | error e => rfl
    | ok x => rfl

/-- an encoding without the identity in front is refused for that -/
theorem encode_of_missing (h : R.gram.identityFirst = false) : R.surface.encode toReal = .error .identityMissing := if_pos h

/-- **The first coefficient without a value is the one that is reported,** that of the identity coming last. -/
theorem encode_of_refused (hfirst : R.gram.identityFirst = true) (hsize : R.size ≤ 2 ^ 32) {before after : List κ} {a : κ} {e : Fault}
    (horder : Surface.conversionOrder R.objective = before ++ a :: after) (hbefore : ∀ b ∈ before, ∃ x, toReal b = .ok x)
    (ha : toReal a = .error e) : R.surface.encode toReal = .error e := by
  obtain ⟨c, rest, C, As, hcons, -, -, -, hencode⟩ := encode_eq toReal hfirst (R.hasMatrices hsize)
  have horder' : rest ++ [c] = before ++ a :: after := by rw [← horder, hcons]; rfl
  rw [hencode]
  rcases List.eq_nil_or_concat after with rfl | ⟨after, b, rfl⟩
  · -- nothing is behind it, so it is that of the identity
    obtain ⟨rfl, hlast⟩ := List.append_inj' horder' rfl
    obtain rfl : c = a := List.singleton_inj.1 hlast
    obtain ⟨bs, hbs⟩ := Outcome.exists_forall₂_ok hbefore
    rw [Outcome.mapM_ok.2 hbs, ha]
    rfl
  · rw [List.concat_eq_append, ← List.cons_append, ← List.append_assoc] at horder'
    obtain ⟨rfl, -⟩ := List.append_inj' horder' rfl
    rw [Outcome.mapM_error hbefore ha]
    rfl

/-- an encoding whose coefficients have values comes to the checks of a program whose parts fit -/
theorem encode_converted (hfirst : R.gram.identityFirst = true) (hmatrices : R.HasMatrices) {xs : List Float}
    (hvalues : List.Forall₂ (fun c x => toReal c = .ok x) R.objective xs) :
    ∃ x bs, ∃ (C : SymMatrix Float) (As : List (SymMatrix Float)), xs = x :: bs ∧ C.dim = R.size ∧ (∀ A ∈ As, A.dim = R.size) ∧
      bs.length = As.length ∧
      R.surface.encode toReal = Program.ofParts R.size (.ok x) (some C) (.ok (As.map some)) (.ok bs) := by
  obtain ⟨c, rest, C, As, hcons, hC, hAs, hlength, hencode⟩ := encode_eq toReal hfirst hmatrices
  rw [hcons] at hvalues
  cases hvalues with
  | @cons _ x _ bs hx hbs =>
    refine ⟨x, bs, C, As, rfl, hC, hAs, hbs.length_eq.symm.trans hlength, ?_⟩
    rw [hencode, Outcome.mapM_ok.2 hbs, hx]
    rfl

/-- **Finite coefficients make a program** if the cells of every monomial make a matrix. -/
theorem encode_of_finite (hfirst : R.gram.identityFirst = true) (hmatrices : R.HasMatrices) {xs : List Float}
    (hvalues : List.Forall₂ (fun c x => toReal c = .ok x) R.objective xs) (hfinite : ∀ x ∈ xs, isFiniteDouble x = true) :
    ∃ P : Program Float, R.surface.encode toReal = .ok P ∧ P.dim = R.size ∧ xs = P.offset :: P.bounds := by
  obtain ⟨hpos, -⟩ := R.gram.pos_of_identityFirst hfirst
  obtain ⟨x, bs, C, As, rfl, hC, hAs, hlength, hencode⟩ := encode_converted hfirst hmatrices hvalues
  obtain ⟨hx, hbs⟩ := List.forall_mem_cons.1 hfinite
  rw [hencode, Program.ofParts_of_fitting hpos hC hAs hlength]
  exact ⟨_, dif_pos ⟨hbs, hx⟩, rfl, rfl⟩

/-- **Coefficients that all have values make a program unless one is not finite.** -/
theorem encode_of_values (hfirst : R.gram.identityFirst = true) (hsize : R.size ≤ 2 ^ 32) {xs : List Float}
    (hvalues : List.Forall₂ (fun c x => toReal c = .ok x) R.objective xs) :
    ((∃ x ∈ xs, isFiniteDouble x = false) → R.surface.encode toReal = .error .dataNotFinite) ∧
      ((∀ x ∈ xs, isFiniteDouble x = true) →
        ∃ P : Program Float, R.surface.encode toReal = .ok P ∧ P.dim = R.size ∧ xs = P.offset :: P.bounds) := by
  refine ⟨?_, encode_of_finite hfirst (R.hasMatrices hsize) hvalues⟩
  rintro ⟨z, hz, hinfinite⟩
  obtain ⟨hpos, -⟩ := R.gram.pos_of_identityFirst hfirst
  obtain ⟨x, bs, C, As, rfl, hC, hAs, hlength, hencode⟩ := encode_converted hfirst (R.hasMatrices hsize) hvalues
  rw [hencode, Program.ofParts_of_fitting hpos hC hAs hlength]
  refine dif_neg fun hfinite => ?_
  have hz' : isFiniteDouble z = true := by
    rcases List.mem_cons.1 hz with rfl | hmem
    · exact hfinite.2
    · exact hfinite.1 z hmem
  rw [hz'] at hinfinite
  cases hinfinite

/-- **There is no other refusal.** -/
theorem encode_error (hsize : R.size ≤ 2 ^ 32) {e : Fault} (h : R.surface.encode toReal = .error e) :
    e = .identityMissing ∨ (∃ c ∈ R.objective, toReal c = .error e) ∨ e = .dataNotFinite := by
  have hmem : ∀ c, c ∈ R.objective ↔ c ∈ Surface.conversionOrder R.objective := by
    intro c
    rw [Surface.conversionOrder, List.mem_append, or_comm, ← List.mem_append, List.take_append_drop]
  cases hfirst : R.gram.identityFirst with
  | false =>
    rw [encode_of_missing hfirst] at h
    exact .inl (Except.error.inj h).symm
  | true =>
    rcases Outcome.all_ok_or_first_error toReal (Surface.conversionOrder R.objective) with hall | ⟨before, a, after, e', horder, hbefore, ha⟩
    · obtain ⟨xs, hvalues⟩ := Outcome.exists_forall₂_ok fun c hc => hall c ((hmem c).1 hc)
      obtain ⟨hinfinite, hfinite⟩ := encode_of_values hfirst hsize hvalues
      by_cases hxs : ∀ x ∈ xs, isFiniteDouble x = true
      · obtain ⟨P, hP, -⟩ := hfinite hxs
        rw [hP] at h
        cases h
      · simp only [not_forall, Bool.not_eq_true, exists_prop] at hxs
        rw [hinfinite hxs] at h
        exact .inr (.inr (Except.error.inj h).symm)
    · rw [encode_of_refused hfirst hsize horder hbefore ha] at h
      have hc : a ∈ R.objective := (hmem a).2 (by rw [horder]; exact List.mem_append_right _ List.mem_cons_self)
      obtain rfl := Except.error.inj h
      exact .inr (.inl ⟨a, hc, ha⟩)

end Relaxation

/-- **What an encoding comes to.** For every relaxation of size up to 2^32 and every conversion of coefficients: without the identity in
front it is refused for that, whatever the coefficients are. With it, the coefficients of the monomials 1, 2, … are converted in order and
that of the identity at last; the first one that has no value is reported. If all have values but one of them is not finite, that is
reported, and otherwise there is a program, of the size of the Gram matrix, with one constraint for each monomial besides the identity,
the values of their coefficients as bounds and that of the identity as offset. Nothing else is ever reported. -/
theorem encoding_verdict {κ : Type} (toReal : κ → Outcome Float) (R : Relaxation Float κ) (hsize : R.size ≤ 2 ^ 32) :
    (R.gram.identityFirst = false → R.surface.encode toReal = .error .identityMissing) ∧
    (R.gram.identityFirst = true →
      (∀ before c after e, R.objective.drop 1 ++ R.objective.take 1 = before ++ c :: after →
        (∀ b ∈ before, ∃ x, toReal b = .ok x) → toReal c = .error e → R.surface.encode toReal = .error e) ∧
      ∀ xs, List.Forall₂ (fun c x => toReal c = .ok x) R.objective xs →
        ((∃ x ∈ xs, isFiniteDouble x = false) → R.surface.encode toReal = .error .dataNotFinite) ∧
        ((∀ x ∈ xs, isFiniteDouble x = true) → ∃ P, R.surface.encode toReal = .ok P ∧ P.dim = R.size ∧
          P.numConstraints + 1 = R.gram.monomials ∧ xs = P.offset :: P.bounds)) ∧
    (∀ e, R.surface.encode toReal = .error e →
      e = .identityMissing ∨ (∃ c ∈ R.objective, toReal c = .error e) ∨ e = .dataNotFinite) ∧
    Fault.identityMissing.kind = .value ∧ Fault.identityMissing.message = some "empty/one monomial not part of the relaxation" ∧
    Fault.dataNotFinite.kind = .value ∧ Fault.dataNotFinite.message = some "Bounds and constant offset must be finite." := by
  refine ⟨Relaxation.encode_of_missing, fun hfirst => ⟨fun before c after e => Relaxation.encode_of_refused hfirst hsize,
    fun xs hvalues => ?_⟩, fun e => Relaxation.encode_error hsize, rfl, rfl, rfl, rfl⟩
  obtain ⟨hinfinite, hfinite⟩ := Relaxation.encode_of_values hfirst hsize hvalues
  refine ⟨hinfinite, fun h => ?_⟩
  obtain ⟨P, hP, hdim, hxs⟩ := hfinite h
  exact ⟨P, hP, hdim, (Relaxation.encode_ok hP).count_constraints, hxs⟩

/-- the corner matrix with other coefficients -/
def cornerWith (c d : Value) : Relaxation Float Value where
  size := 2
  gram := cornerRelaxation.gram
  objective := [c, d]
  length_eq := show 2 = monomialCount cornerRelaxation.gram.tags by decide

/-- of two coefficients without a value the one of the identity is not the one reported; an infinite one is refused for that; and two
numbers are the offset and the bound -/
theorem encoding_verdict_order :
    (cornerWith (.text "x") .null).surface.encode realValue = .error (.coefficientNotNumeric "None") ∧
      (cornerWith (.text "inf") (.ofFloat 0.5)).surface.encode realValue = .error .dataNotFinite ∧
      ∃ P, (cornerWith (.ofInt 3) (.ofFloat 0.5)).surface.encode realValue = .ok P ∧ P.offset = 3.0 ∧ P.bounds = [0.5] := by
  have hsize : 2 ≤ 2 ^ 32 := by decide
  have hfirst : cornerRelaxation.gram.identityFirst = true := by decide
  refine ⟨?_, ?_, ?_⟩
  · obtain ⟨hrefused, -⟩ := (encoding_verdict realValue (cornerWith (.text "x") .null) hsize).2.1 hfirst
    exact hrefused [] .null [.text "x"] _ rfl (by simp) rfl
  · obtain ⟨-, hvalues⟩ := (encoding_verdict realValue (cornerWith (.text "inf") (.ofFloat 0.5)) hsize).2.1 hfirst
    obtain ⟨x, hx, hinfinite⟩ : ∃ x, realValue (.text "inf") = .ok x ∧ isFiniteDouble x = false := ⟨_, rfl, by decide⟩
    exact (hvalues [x, 0.5] (.cons hx (.cons rfl .nil))).1 ⟨x, List.mem_cons_self, hinfinite⟩
  · obtain ⟨-, hvalues⟩ := (encoding_verdict realValue (cornerWith (.ofInt 3) (.ofFloat 0.5)) hsize).2.1 hfirst
    have hthree : realValue (.ofInt 3) = .ok 3.0 := by decide +kernel
    have hfinite : ∀ x ∈ [(3.0 : Float), 0.5], isFiniteDouble x = true := by decide
    obtain ⟨P, hP, -, -, hxs⟩ := (hvalues [3.0, 0.5] (.cons hthree (.cons rfl .nil))).2 hfinite
    exact ⟨P, hP, (List.cons.inj hxs).1.symm, (List.cons.inj hxs).2.symm⟩

end MomentProgram
