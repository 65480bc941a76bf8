/-
Programs whose dimension is of any kind, by their parts.

A program has the parts it was made of, and all of them are matrices (`StatedProgram.ofParts_ok`), whether its dimensions are unsized whole
numbers or not. If all its matrices have full forms of one number of rows (`StatedProgram.Extends`), these make a `Program` with the bounds
and the offset as they are (`StatedProgram.Counts`), and the checks of points answer as those of that program do.
-/
import Mathlib
import MomentProgram.Program.Stated
import MomentProgram.Proofs.Program.Duality
import MomentProgram.Proofs.Program.Encode

namespace MomentProgram

/-! ## What a program is made of -/

namespace LooseProgram

variable {dim : Value}

theorem checkedMatrix_ok {position : Option Nat} {part : Option StatedMatrix} {A : { A : StatedMatrix // A.dim.equal dim = .ok true }}
    (h : checkedMatrix dim position part = .ok A) : part = some A.1 := by
  unfold checkedMatrix at h
  split at h
  · cases h
  split at h
  · cases h
  · cases h
    rfl
  · obtain ⟨_, -, h⟩ := Outcome.bind_ok.1 h
    obtain ⟨_, -, h⟩ := Outcome.bind_ok.1 h
    cases h

theorem checkedMatrices_ok {i : Nat} {parts : List (Option StatedMatrix)}
    {As : { As : List StatedMatrix // As.length = parts.length ∧ ∀ A ∈ As, A.dim.equal dim = .ok true }}
    (h : checkedMatrices dim i parts = .ok As) : parts = As.1.map some := by
  induction parts generalizing i with
  | nil => cases h; rfl
  | cons part parts ih =>
    rw [checkedMatrices] at h
    split at h
    · cases h
    case h_2 A hA =>
      split at h
      · cases h
      case h_2 Bs hBs =>
        cases h
        exact congrArg₂ List.cons (checkedMatrix_ok hA) (ih hBs)

theorem ofParts_ok {offset : Outcome Float} {fixed : Option StatedMatrix} {constraints : Outcome (List (Option StatedMatrix))}
    {bounds : Outcome (List Float)} {P : LooseProgram} (h : ofParts dim offset fixed constraints bounds = .ok P) :
    P.dim = dim ∧ offset = .ok P.offset ∧ fixed = some P.fixed ∧ constraints = .ok (P.constraints.map some) ∧ bounds = .ok P.bounds := by
  unfold ofParts at h
  split at h
  · cases h
  · cases h
  obtain ⟨parts, hparts, h⟩ := Outcome.bind_ok.1 h
  obtain ⟨bs, hbs, h⟩ := Outcome.bind_ok.1 h
  split at h
  case isFalse => cases h
  obtain ⟨C, hC, h⟩ := Outcome.bind_ok.1 h
  obtain ⟨As, hAs, h⟩ := Outcome.bind_ok.1 h
  split at h
  case isFalse => cases h
  obtain ⟨c, hc, h⟩ := Outcome.bind_ok.1 h
  split at h
  case isFalse => cases h
  cases h
  exact ⟨rfl, hc, checkedMatrix_ok hC, hparts.trans (congrArg Except.ok (checkedMatrices_ok hAs)), hbs⟩

end LooseProgram

namespace StatedProgram

theorem eq_of_plainPart? {part : Option StatedMatrix} {A : Option (SymMatrix Float)} (h : plainPart? part = some A) :
    part = A.map .plain := by
  unfold plainPart? at h
  split at h <;> cases h <;> rfl

theorem eq_of_mapM_plainPart? {parts : List (Option StatedMatrix)} {As : List (Option (SymMatrix Float))}
    (h : parts.mapM plainPart? = some As) : parts = As.map (Option.map .plain) := by
  induction parts generalizing As with
  | nil => cases h; rfl
  | cons part parts ih =>
    rw [List.mapM_cons] at h
    obtain ⟨A, hA, h⟩ := Option.bind_eq_some_iff.1 h
    obtain ⟨Bs, hBs, h⟩ := Option.bind_eq_some_iff.1 h
    cases h
    exact congrArg₂ List.cons (eq_of_plainPart? hA) (ih hBs)

theorem eq_of_plainParts? {dim : Value} {fixed : Option StatedMatrix} {parts : List (Option StatedMatrix)} {d : Int}
    {C : Option (SymMatrix Float)} {As : List (Option (SymMatrix Float))} (h : plainParts? dim fixed parts = some (d, C, As)) :
    dim = .ofInt d ∧ fixed = C.map .plain ∧ parts = As.map (Option.map .plain) := by
  unfold plainParts? at h
  split at h
  case h_2 => cases h
  obtain ⟨C', hC, h⟩ := Option.bind_eq_some_iff.1 h
  obtain ⟨As', hAs, h⟩ := Option.bind_eq_some_iff.1 h
  cases h
  exact ⟨rfl, eq_of_plainPart? hC, eq_of_mapM_plainPart? hAs⟩

/-- **Every part of a program is the one that it was made of,** and all of them are matrices. -/
theorem ofParts_ok {dim : Value} {offset : Outcome Float} {fixed : Option StatedMatrix} {constraints : Outcome (List (Option StatedMatrix))}
    {bounds : Outcome (List Float)} {P : StatedProgram} (h : ofParts dim offset fixed constraints bounds = .ok P) :
    P.parts.dim = dim ∧ offset = .ok P.parts.offset ∧ fixed = some P.parts.fixed ∧ constraints = .ok (P.parts.constraints.map some) ∧
      bounds = .ok P.parts.bounds := by
  unfold ofParts at h
  split at h
  case h_1 d C As hplain =>
    obtain ⟨rfl, rfl, hparts⟩ := eq_of_plainParts? hplain
    obtain ⟨Q, hQ, rfl⟩ := Outcome.map_ok.1 (Outcome.mapError_ok.1 h)
    obtain ⟨hdim, hoffset, rfl, hconstraints, hbounds⟩ := Program.ofParts_ok hQ
    obtain ⟨offered, rfl, rfl⟩ := Outcome.map_ok.1 hconstraints
    refine ⟨congrArg Value.ofInt hdim, hoffset, rfl, congrArg Except.ok ?_, hbounds⟩
    rw [show offered = _ from hparts, List.map_map]
    show _ = (Q.constraints.map StatedMatrix.plain).map some
    rw [List.map_map]
    rfl
  case h_2 =>
    obtain ⟨Q, hQ, rfl⟩ := Outcome.map_ok.1 h
    exact LooseProgram.ofParts_ok hQ

end StatedProgram

/-! ## Programs by the full forms of their matrices -/

namespace StatedProgram

/-- the fixed matrix and the constraint matrices -/
def matrices (P : StatedProgram) : List StatedMatrix := P.parts.fixed :: P.parts.constraints

/-- every matrix has a full form, of a given number of rows -/
def Extends (P : StatedProgram) (d : ℕ) : Prop := 0 < d ∧ ∀ A ∈ P.matrices, ∃ B, A.full = .ok B ∧ B.dim = d

/-- a program made of the full forms of the matrices, with the bounds and the offset as they are -/
structure Counts (P : StatedProgram) (Q : Program Float) : Prop where
  fixed : P.parts.fixed.full = .ok Q.fixed
  constraints : List.Forall₂ (fun A B => A.full = .ok B) P.parts.constraints Q.constraints
  bounds : Q.bounds = P.parts.bounds
  offset : Q.offset = P.parts.offset

section Counted

variable {P : StatedProgram} {Q : Program Float} {d : ℕ}

theorem Extends.exists_counts (h : P.Extends d) : ∃ Q, P.Counts Q ∧ Q.dim = d := by
  obtain ⟨hpos, hfull⟩ := h
  obtain ⟨⟨C, hC, hCdim⟩, hconstraints⟩ := List.forall_mem_cons.1 hfull
  obtain ⟨As, hAs⟩ := Outcome.exists_forall₂_ok fun A hA => (hconstraints A hA).imp fun _ hB => hB.1
  have hdims : ∀ B ∈ As, B.dim = d := by
    intro B hB
    obtain ⟨A, hA, hAB⟩ := Outcome.exists_related hAs hB
    obtain ⟨B', hAB', hdim⟩ := hconstraints A hA
    rw [Except.ok.inj (hAB.symm.trans hAB'), hdim]
  have hlength : P.parts.bounds.length = As.length := P.parts.length_eq.trans hAs.length_eq
  exact ⟨⟨d, P.parts.offset, C, As, P.parts.bounds, hpos, hCdim, hdims, hlength, P.parts.bounds_finite, P.parts.offset_finite⟩,
    ⟨hC, hAs, rfl, rfl⟩, rfl⟩

theorem Counts.extends (h : P.Counts Q) : P.Extends Q.dim := by
  refine ⟨Q.dim_pos, List.forall_mem_cons.2 ⟨⟨Q.fixed, h.fixed, Q.fixed_dim⟩, fun A hA => ?_⟩⟩
  obtain ⟨B, hB, hAB⟩ := Outcome.exists_related h.constraints.flip hA
  exact ⟨B, hAB, Q.constraint_dim B hB⟩

theorem counts_plain (P : Program Float) : (plain P).Counts P :=
  ⟨rfl, List.forall₂_map_left_iff.2 (List.forall₂_same.2 fun _ _ => rfl), rfl, rfl⟩

/-- nothing else is made of the full forms of a program -/
theorem Counts.eq_of_plain {P : Program Float} (h : (plain P).Counts Q) : Q = P := by
  have hfixed : P.fixed = Q.fixed := Except.ok.inj h.fixed
  have hconstraints : P.constraints = Q.constraints := by
    have hsame := (List.forall₂_map_left_iff.1 h.constraints).imp fun A B (hAB : Except.ok A = _) => Except.ok.inj hAB
    exact List.forall₂_eq_eq_eq ▸ hsame
  have hdim : Q.dim = P.dim := by rw [← Q.fixed_dim, ← hfixed, P.fixed_dim]
  obtain ⟨⟩ := P
  obtain ⟨⟩ := Q
  cases hfixed
  cases hconstraints
  cases hdim
  cases h.bounds
  cases h.offset
  rfl

theorem Counts.length_eq (h : P.Counts Q) : Q.numConstraints = P.numConstraints := h.constraints.length_eq.symm

theorem Counts.applyConstraints_eq (h : P.Counts Q) (X : Tensor Float) : P.applyConstraints X = Q.applyConstraints X := by
  cases P with
  | plain P => rw [h.eq_of_plain]; rfl
  | loose P =>
    exact congrArg (Program.symmetrised X >>= ·) (funext fun S =>
      Outcome.mapM_bind_of_forall₂ h.constraints fun B => B.innerAlong S (symmetricSteps X.shape))

theorem Counts.primalObjective_eq (h : P.Counts Q) (X : Tensor Float) : P.primalObjective X = Q.primalObjective X := by
  cases P with
  | plain P => rw [h.eq_of_plain]; rfl
  | loose P =>
    have hfixed : P.fixed.full = .ok Q.fixed := h.fixed
    have hoffset : Q.offset = P.offset := h.offset
    show (Program.symmetrised X >>= fun S => (P.fixed.full >>= fun B => B.innerAlong S (symmetricSteps X.shape)) >>=
      fun v => pure (P.offset + v)) = _
    rw [hfixed, ← hoffset]
    rfl

/-- the program of the full forms is the one that a program of another dimension is counted as -/
theorem counted_ok {P : LooseProgram} : P.counted = .ok Q ↔ (loose P).Counts Q := by
  constructor
  · intro h
    obtain ⟨C, hC, h⟩ := Outcome.bind_ok.1 h
    obtain ⟨As, hAs, h⟩ := Outcome.bind_ok.1 h
    obtain ⟨-, hoffset, hfixed, hconstraints, hbounds⟩ := Program.ofParts_ok h
    cases hfixed
    have hsame : As = Q.constraints := (List.map_injective_iff.2 (Option.some_injective _)) (Except.ok.inj hconstraints)
    exact ⟨hC, hsame ▸ Outcome.mapM_ok.1 hAs, (Except.ok.inj hbounds).symm, (Except.ok.inj hoffset).symm⟩
  · rintro ⟨hfixed, hconstraints, hbounds, hoffset⟩
    refine Outcome.bind_ok.2 ⟨_, hfixed, Outcome.bind_ok.2 ⟨_, Outcome.mapM_ok.2 hconstraints, ?_⟩⟩
    rw [Q.fixed_dim, show P.offset = Q.offset from hoffset.symm, show P.bounds = Q.bounds from hbounds.symm]
    exact Q.ofParts_parts

theorem Counts.momentMatrix_eq (h : P.Counts Q) {y : List Float} (hy : y.length = P.numConstraints) :
    P.momentMatrix y = .ok ⟨Q.dim, .ofFn fun r c => Q.momentCell y r c⟩ := by
  have hmoment : (Q.momentMatrix y).map (fun g => (⟨Q.dim, g⟩ : (d : ℕ) × Grid d Float)) =
      .ok ⟨Q.dim, .ofFn fun r c => Q.momentCell y r c⟩ := by
    rw [Q.momentMatrix_of_length (hy.trans h.length_eq.symm)]
    rfl
  cases P with
  | plain P =>
    rw [h.eq_of_plain] at hmoment
    rw [h.eq_of_plain]
    exact hmoment
  | loose P =>
    have hlength : y.length = P.constraints.length := hy
    show (if y.length ≠ P.constraints.length then _ else P.counted.bind _) = _
    rw [if_neg (not_not.2 hlength), counted_ok.2 h]
    exact hmoment

end Counted

end StatedProgram

end MomentProgram
