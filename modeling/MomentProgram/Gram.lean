/-
Gram matrices of monomials.

Cell (r, c) of a `Gram` holds the monomial of index `tags r c` times the phase `phases r c`; the tag -1 marks a cell that is
identically zero. The tags are symmetric, at least -1, and the others are exactly 0, …, n - 1, where n is the number of
monomials; the phases of mirrored cells are equal as numbers, and those of zero cells are zero: that is part of the type. `ofTags`
builds one from unchecked tags and phases and refuses in a fixed order. It sets the phases of zero cells to zero; a phase given for
a zero cell still has to be symmetric. `lowerTriangular` collects the cells of one monomial, `evaluate` puts a moment in the place
of each monomial.
-/
import MomentProgram.Symmetric.Tagged

namespace MomentProgram

/-- the tag of a cell that is identically zero -/
def zeroCell : Int := -1

/-- how many monomials a grid of tags names: one more than its largest tag -/
def monomialCount {d : Nat} (tags : Grid d Int) : Nat := (tags.toList.foldl max zeroCell + 1).toNat

/-- every tag from zero to the largest occurs -/
def isContiguous {d : Nat} (tags : Grid d Int) : Bool :=
  let present := tags.toList
  decide (monomialCount tags ≤ d * d) && (List.range (monomialCount tags)).all fun k => present.contains (k : Int)

def clearedPhases {d : Nat} {α : Type} [Scalar α] (tags : Grid d Int) (phases : Grid d α) : Grid d α :=
  .ofFn fun r c => if tags.get r c = zeroCell then Scalar.zero else phases.get r c

theorem clearedPhases_symmetric {d : Nat} {α : Type} [BEq α] [Scalar α] [ReflConstants α] {tags : Grid d Int} {phases : Grid d α}
    (ht : ∀ r c, tags.get r c = tags.get c r) (hp : phases.isSymmetric (· == ·) = true) :
    (clearedPhases tags phases).isSymmetric (· == ·) = true := by
  rw [Grid.isSymmetric_iff] at hp ⊢
  intro r c
  simp only [clearedPhases, Grid.get_ofFn, ht c r]
  split
  · exact ReflConstants.zero_beq
  · exact hp r c

/-- a Gram matrix of size `d` with phases in `α` -/
structure Gram (d : Nat) (α : Type) [BEq α] [Scalar α] where
  tags : Grid d Int
  phases : Grid d α
  least : ∀ r c, zeroCell ≤ tags.get r c
  symmetric : ∀ r c, tags.get r c = tags.get c r
  contiguous : isContiguous tags = true
  mirrored : phases.isSymmetric (· == ·) = true
  cleared : ∀ r c, tags.get r c = zeroCell → phases.get r c = Scalar.zero

namespace Gram

variable {d : Nat} {α : Type} [BEq α] [Scalar α]

/-- the phases as given, or all one -/
def givenPhases [ReflConstants α] (d : Nat) (phases : Option (Outcome (Tensor α))) :
    Outcome { g : Grid d α // g.isSymmetric (· == ·) = true } :=
  match phases with
  | none => .ok ⟨.ofFn fun _ _ => Scalar.one, by simp [Grid.isSymmetric_iff, ReflConstants.one_beq]⟩
  | some (.error e) => .error e
  | some (.ok t) => match t.toGridOf? d with
    | none => .error (.phasesShape [d, d] t.shape)
    | some g => if h : g.isSymmetric (· == ·) = true then .ok ⟨g, h⟩ else .error .phasesNotSymmetric

/-- the Gram matrix of given tags and phases, checked in order; the phases are looked at last -/
def ofTags [ReflConstants α] (tags : Grid d Int) (phases : Option (Outcome (Tensor α))) : Outcome (Gram d α) :=
  if hl : ∀ r c, zeroCell ≤ tags.get r c then
    if hs : ∀ r c, tags.get r c = tags.get c r then
      if hc : isContiguous tags = true then
        match givenPhases d phases with
        | .ok g => .ok ⟨tags, clearedPhases tags g.1, hl, hs, hc, clearedPhases_symmetric hs g.2,
            fun r c h => by simp [clearedPhases, h]⟩
        | .error e => .error e
      else .error .tagsNotContiguous
    else .error .tagsNotSymmetric
  else .error .tagsBelowZeroCell

/-- the number of distinct monomials, the identity included -/
def monomials (g : Gram d α) : Nat := monomialCount g.tags

/-- the first cell holds monomial zero with phase one -/
def identityFirst (g : Gram d α) : Bool :=
  if h : 0 < d then g.tags.get ⟨0, h⟩ ⟨0, h⟩ == 0 && g.phases.get ⟨0, h⟩ ⟨0, h⟩ == Scalar.one else false

/-- the cells on or below the diagonal with a tag, each phase times a scale -/
def lowerTriangular [Mul α] (g : Gram d α) (index : Int) (scale : α) : Outcome (SymMatrix α) :=
  SymMatrix.ofTaggedGrid g.tags (· == index) g.phases (scale * ·)

/-- the matrix with moment `k` in the place of monomial `k`; a zero cell reads the first moment, times its phase zero -/
def evaluate [Mul α] (g : Gram d α) (moments : List α) : Outcome (Grid d α) :=
  if moments.length ≠ g.monomials then .error (.momentCount g.monomials moments.length)
  else if moments = [] ∧ 0 < d then .error .missingEntry
  else .ok (.ofFn fun r c => g.phases.get r c * moments.getD (g.tags.get r c).toNat Scalar.zero)

end Gram

end MomentProgram
