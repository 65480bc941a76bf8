/-
Taking programs and encodings apart.

A program that was made has every part it was made of (`Program.ofParts_ok`) and passes the checks of its own parts
(`Program.ofParts_parts`); parts that fit each other make one unless a number is not finite (`Program.ofParts_of_fitting`). An encoding that
came to an end has gone through all its checks (`Surface.encode_ok`). For a relaxation this says where every part of its program comes
from: `Encodes` lists it, with the fixed matrix counted as matrix 0 and the constraint matrix of monomial k as matrix k.
-/
import Mathlib
import MomentProgram.Program.Encode
import MomentProgram.Proofs.Outcome

namespace MomentProgram

/-! ## Taking a program apart -/

namespace Program

variable {α : Type} [Scalar α]

/-- the fixed matrix and the constraint matrices -/
def matrices (P : Program α) : List (SymMatrix α) := P.fixed :: P.constraints

omit [Scalar α] in
theorem checkedMatrix_ok {dim : Int} {position : Option Nat} {part : Option (SymMatrix α)}
    {A : { A : SymMatrix α // (A.dim : Int) = dim }} (h : checkedMatrix dim position part = .ok A) : part = some A.1 := by
  unfold checkedMatrix at h
  split at h
  · cases h
  · split at h
    · cases h; rfl
    · cases h

omit [Scalar α] in
theorem checkedMatrices_ok {dim : Int} {i : Nat} {parts : List (Option (SymMatrix α))}
    {As : { As : List (SymMatrix α) // As.length = parts.length ∧ ∀ A ∈ As, (A.dim : Int) = dim }}
    (h : checkedMatrices dim i parts = .ok As) : parts = As.1.map some := by
  induction parts generalizing i with
  | nil => cases h; rfl
  | cons part parts ih =>
    rw [checkedMatrices] at h
    split at h
    · cases h
    case h_2 A hA =>
      split at h
      · cases h
      case h_2 Bs hBs =>
        cases h
        exact congrArg₂ List.cons (checkedMatrix_ok hA) (ih hBs)

/-- **Every part of a program is the one that it was made of.** -/
theorem ofParts_ok {dim : Int} {offset : Outcome α} {fixed : Option (SymMatrix α)}
    {constraints : Outcome (List (Option (SymMatrix α)))} {bounds : Outcome (List α)} {P : Program α}
    (h : ofParts dim offset fixed constraints bounds = .ok P) :
    (P.dim : Int) = dim ∧ offset = .ok P.offset ∧ fixed = some P.fixed ∧ constraints = .ok (P.constraints.map some) ∧
      bounds = .ok P.bounds := by
  unfold ofParts at h
  -- each check either refuses, which `h` excludes, or leaves what it has found
  split at h
  · cases h
  rename_i hd
  split at h
  · cases h
  rename_i parts
  split at h
  · cases h
  rename_i bs
  split at h
  case isFalse => cases h
  split at h
  · cases h
  rename_i C hC
  split at h
  · cases h
  rename_i As hAs
  split at h
  case isFalse => cases h
  split at h
  · cases h
  rename_i c
  split at h
  case isFalse => cases h
  cases h
  exact ⟨by simp only; omega, rfl, checkedMatrix_ok hC, congrArg Except.ok (checkedMatrices_ok hAs), rfl⟩

omit [Scalar α] in
theorem checkedMatrices_map_some {dim : Int} {As : List (SymMatrix α)} (h : ∀ A ∈ As, (A.dim : Int) = dim) (i : Nat) :
    ∃ p, checkedMatrices dim i (As.map some) = .ok ⟨As, p⟩ := by
  induction As generalizing i with
  | nil => exact ⟨_, rfl⟩
  | cons A As ih =>
    obtain ⟨hA, hAs⟩ := List.forall_mem_cons.1 h
    obtain ⟨p, hp⟩ := ih hAs (i + 1)
    have hchecked : checkedMatrix dim (some i) (some A) = .ok ⟨A, hA⟩ := dif_pos hA
    refine ⟨by simpa using h, ?_⟩
    change checkedMatrices dim i (some A :: As.map some) = _
    simp only [checkedMatrices, hchecked, hp]

/-- **Parts that fit make a program unless a number is not finite.** -/
theorem ofParts_of_fitting {dim : Nat} {c : α} {C : SymMatrix α} {As : List (SymMatrix α)} {bs : List α} (hpos : 0 < dim)
    (hC : C.dim = dim) (hAs : ∀ A ∈ As, A.dim = dim) (hlength : bs.length = As.length) :
    ofParts dim (.ok c) (some C) (.ok (As.map some)) (.ok bs) =
      if h : (∀ b ∈ bs, Scalar.isFinite b = true) ∧ Scalar.isFinite c = true then
        .ok ⟨dim, c, C, As, bs, hpos, hC, hAs, hlength, h.1, h.2⟩
      else .error .dataNotFinite := by
  have hdim : ¬ (dim : Int) ≤ 0 := by omega
  have hlength' : bs.length = (As.map some).length := by rw [List.length_map, hlength]
  have hfixed : checkedMatrix (dim : Int) none (some C) = .ok ⟨C, by rw [hC]⟩ := dif_pos (by rw [hC])
  have hAs' : ∀ A ∈ As, (A.dim : Int) = dim := fun A hA => by rw [hAs A hA]
  obtain ⟨p, hp⟩ := checkedMatrices_map_some hAs' 0
  unfold ofParts
  rw [dif_neg hdim]
  simp only [dif_pos hlength', hfixed, hp]
  by_cases hbs : ∀ b ∈ bs, Scalar.isFinite b = true
  · by_cases hc : Scalar.isFinite c = true
    · rw [dif_pos hbs, dif_pos hc, dif_pos ⟨hbs, hc⟩]
      rfl
    · rw [dif_pos hbs, dif_neg hc, dif_neg fun h => hc h.2]
  · rw [dif_neg hbs, dif_neg fun h => hbs h.1]

theorem values_finite (P : Program α) : ∀ x ∈ P.offset :: P.bounds, Scalar.isFinite x = true :=
  List.forall_mem_cons.2 ⟨P.offset_finite, P.bounds_finite⟩

/-- a program passes the checks of its own parts -/
theorem ofParts_parts (P : Program α) :
    ofParts P.dim (.ok P.offset) (some P.fixed) (.ok (P.constraints.map some)) (.ok P.bounds) = .ok P := by
  rw [ofParts_of_fitting P.dim_pos P.fixed_dim P.constraint_dim P.length_eq, dif_pos ⟨P.bounds_finite, P.offset_finite⟩]

end Program

/-! ## Taking an encoding apart -/

namespace Surface

variable {α κ : Type} [Scalar α]

theorem encode_ok {toReal : κ → Outcome α} {S : Surface α κ} {P : Program α} (h : S.encode toReal = .ok P) :
    S.identityFirst = true ∧ ∃ objective, S.objective = some objective ∧ (objective.length : Int) = S.monomials ∧
      (P.dim : Int) = S.size ∧ S.fixed = .ok (some P.fixed) ∧
      ((List.range (objective.length - 1)).mapM fun i => S.constraint (i + 1)) = .ok (P.constraints.map some) ∧
      boundsOf toReal objective = .ok P.bounds ∧ offsetOf toReal objective = .ok P.offset := by
  unfold encode at h
  split at h
  · cases h
  rename_i hfirst
  split at h
  · cases h
  rename_i objective hobj
  split at h
  · cases h
  rename_i hlen
  obtain ⟨parts, hparts, hP⟩ := Outcome.bind_ok.1 h
  obtain ⟨C, hC, hrest⟩ := Outcome.bind_ok.1 hparts
  obtain ⟨As, hAs, hrest⟩ := Outcome.bind_ok.1 hrest
  obtain ⟨bs, hbs, hrest⟩ := Outcome.bind_ok.1 hrest
  obtain ⟨c, hc, hrest⟩ := Outcome.bind_ok.1 hrest
  cases hrest
  obtain ⟨hdim, hoffset, hfixed, hconstraints, hbounds⟩ := Program.ofParts_ok hP
  cases hoffset
  cases hconstraints
  cases hbounds
  exact ⟨by simpa using hfirst, objective, hobj, by simpa using hlen, hdim, hC.trans (congrArg Except.ok hfixed),
    Outcome.mapError_ok.1 hAs, hbs, hc⟩

end Surface

/-! ## Taking a relaxation apart -/

section Relaxations

variable {α κ : Type} [BEq α] [Scalar α] {d : ℕ} {g : Gram d α} {objective : List κ}

theorem Relaxation.ofParts_ok {R : Relaxation α κ} (h : ofParts g (some objective) = .ok R) :
    ∃ hlength, R = ⟨d, g, objective, hlength⟩ := by
  unfold ofParts at h
  dsimp only at h
  split_ifs at h with hlength
  cases h
  exact ⟨hlength, rfl⟩

theorem Relaxation.ofParts_of_length (hlength : objective.length = g.monomials) :
    ofParts g (some objective) = .ok ⟨d, g, objective, hlength⟩ := dif_pos hlength

end Relaxations

section Encodings

variable {α κ : Type} [BEq α] [Mul α] [Neg α] [Scalar α]

/-- the scale of the cells in matrix `k` of a program -/
def matrixScale (k : Nat) : α := if k = 0 then Scalar.one else Surface.constraintScale

/-- where the parts of an encoded program come from -/
structure Encodes (toReal : κ → Outcome α) (R : Relaxation α κ) (P : Program α) : Prop where
  first : R.gram.identityFirst = true
  dim_eq : P.dim = R.size
  count : P.matrices.length = R.gram.monomials
  matrix : ∀ k (hk : k < P.matrices.length), R.gram.lowerTriangular k (matrixScale k) = .ok P.matrices[k]
  bounds_eq : (R.objective.drop 1).mapM toReal = .ok P.bounds
  offset_eq : ∃ c rest, R.objective = c :: rest ∧ toReal c = .ok P.offset

variable {toReal : κ → Outcome α} {R : Relaxation α κ} {P : Program α}

/-- **An encoded program is made of the cells of each monomial and of the coefficients.** -/
theorem Relaxation.encode_ok (h : R.surface.encode toReal = .ok P) : Encodes toReal R P := by
  obtain ⟨hfirst, objective, hobj, hlen, hdim, hfixed, hconstraints, hbounds, hoffset⟩ := Surface.encode_ok h
  obtain rfl : R.objective = objective := Option.some.inj hobj
  have hlen' : R.objective.length = R.gram.monomials := R.length_eq
  obtain ⟨c, rest, hcons, hc⟩ : ∃ c rest, R.objective = c :: rest ∧ toReal c = .ok P.offset := by
    cases hR : R.objective with
    | nil => rw [hR] at hoffset; cases hoffset
    | cons c rest => rw [hR] at hoffset; exact ⟨c, rest, rfl, hoffset⟩
  have hpos : 1 ≤ R.objective.length := by rw [hcons]; simp
  have hall := Outcome.mapM_ok.1 hconstraints
  have hcount : R.objective.length - 1 = P.constraints.length := by simpa using hall.length_eq
  have hmatrix : ∀ i (hi : i < P.constraints.length),
      R.gram.lowerTriangular ((i + 1 : Nat) : Int) Surface.constraintScale = .ok P.constraints[i] := by
    intro i hi
    have hget := List.forall₂_iff_get.1 hall
    have := hget.2 i (by simpa [hcount] using hi) (by simpa using hi)
    obtain ⟨A, hA, hsome⟩ := Outcome.map_ok.1 (by simpa [Relaxation.surface, Surface.ofGram] using this)
    push_cast
    exact hA.trans (congrArg Except.ok (Option.some.inj hsome))
  refine ⟨hfirst, Int.ofNat.inj hdim, ?_, ?_, hbounds, c, rest, hcons, hc⟩
  · simp only [Program.matrices, List.length_cons]; omega
  · intro k hk
    cases k with
    | zero =>
      obtain ⟨A, hA, hsome⟩ := Outcome.map_ok.1 hfixed
      exact hA.trans (congrArg Except.ok (Option.some.inj hsome))
    | succ i => exact hmatrix i (by simpa [Program.matrices] using hk)

/-- one constraint matrix for each monomial besides the identity -/
theorem Encodes.count_constraints (h : Encodes toReal R P) : P.constraints.length + 1 = R.gram.monomials := h.count

/-- **Offset and bounds are the values of the coefficients,** in the order of the monomials. -/
theorem Encodes.values (h : Encodes toReal R P) :
    List.Forall₂ (fun c x => toReal c = .ok x) R.objective (P.offset :: P.bounds) := by
  obtain ⟨c, rest, hcons, hc⟩ := h.offset_eq
  have hbounds : rest.mapM toReal = .ok P.bounds := by simpa [hcons] using h.bounds_eq
  rw [hcons]
  exact .cons hc (Outcome.mapM_ok.1 hbounds)

end Encodings

end MomentProgram
