/-
Arrays of any shape, and how two shapes fit each other.

A `Tensor` has a shape and its entries in row-major order. `indices` lists the multi-indices of a shape in that order and
`offset` places them; `Tensor.ofFn` fills a shape from a function of the multi-index. Two shapes fit (`fitted?`) if, aligned at
their last axes, extents are equal or one of them is one; an axis of extent one, or a missing one, repeats (`project`).
-/
import MomentProgram.Array.Grid
import MomentProgram.Scalar

namespace MomentProgram

def shapeSize (s : List Nat) : Nat := s.foldr (· * ·) 1

/-- the multi-indices of a shape in row-major order -/
def indices : List Nat → List (List Nat)
  | [] => [[]]
  | n :: s => (List.range n).flatMap fun i => (indices s).map (i :: ·)

theorem length_indices (s : List Nat) : (indices s).length = shapeSize s := by
  induction s with
  | nil => rfl
  | cons n s ih =>
    have : ∀ l : List Nat, (l.flatMap fun i => (indices s).map (i :: ·)).length = l.length * shapeSize s := by
      intro l
      induction l with
      | nil => simp
      | cons a l ihl => simp [ihl, ih, Nat.succ_mul, Nat.add_comm]
    simp [indices, this, shapeSize]

/-- the position of a multi-index in row-major order -/
def offset : List Nat → List Nat → Nat
  | _ :: s, i :: ix => i * shapeSize s + offset s ix
  | _, _ => 0

/-- an array: a shape and its entries in row-major order -/
structure Tensor (α : Type) where
  shape : List Nat
  entries : Array α
  size_eq : entries.size = shapeSize shape

namespace Tensor

variable {α β : Type}

/-- the array of a shape with given entries, if there are as many as the shape has -/
def ofList? (shape : List Nat) (l : List α) : Option (Tensor α) :=
  if h : l.length = shapeSize shape then some ⟨shape, l.toArray, by simpa using h⟩ else none

/-- the array of a shape filled from a function of the multi-index -/
def ofFn (shape : List Nat) (f : List Nat → α) : Tensor α :=
  ⟨shape, ((indices shape).map f).toArray, by simp [length_indices]⟩

/-- the entry at a multi-index; `fallback` outside the shape -/
def get (t : Tensor α) (fallback : α) (ix : List Nat) : α := t.entries.getD (offset t.shape ix) fallback

def toList (t : Tensor α) : List α := t.entries.toList

def map (f : α → β) (t : Tensor α) : Tensor β := ⟨t.shape, t.entries.map f, by simpa using t.size_eq⟩

def transpose (t : Tensor α) (fallback : α) : Tensor α := ofFn t.shape.reverse fun ix => t.get fallback ix.reverse

def toGrid? (t : Tensor α) : Option ((d : Nat) × Grid d α) :=
  match h : t.shape with
  | [d, e] =>
    if he : d = e then
      some ⟨d, ⟨t.entries, by have := t.size_eq; subst he; simpa [h, shapeSize] using this⟩⟩
    else none
  | _ => none

/-- an array of two axes of a known extent as a grid -/
def toGridOf? (t : Tensor α) (d : Nat) : Option (Grid d α) :=
  if h : t.shape = [d, d] then some ⟨⟨t.entries, by have := t.size_eq; simpa [h, shapeSize] using this⟩⟩ else none

def ofGrid {d : Nat} (g : Grid d α) : Tensor α := ⟨[d, d], g.cells.toArray, by simp [shapeSize]⟩

def ofVector (l : List α) : Tensor α := ⟨[l.length], l.toArray, by simp [shapeSize]⟩

end Tensor

/-- each entry of a list by a function that can refuse: the first refusal, or all results -/
def eachEntry {ε α β : Type} (f : α → Except ε β) : (l : List α) → Except ε { r : List β // r.length = l.length }
  | [] => .ok ⟨[], rfl⟩
  | a :: l => match f a with
    | .error e => .error e
    | .ok b => match eachEntry f l with
      | .error e => .error e
      | .ok r => .ok ⟨b :: r.1, by simp [r.2]⟩

/-- each entry of an array by a function that can refuse, in row-major order -/
def Tensor.mapE {ε α β : Type} (f : α → Except ε β) (t : Tensor α) : Except ε (Tensor β) :=
  match eachEntry f t.entries.toList with
  | .error e => .error e
  | .ok r => .ok ⟨t.shape, r.1.toArray, by have := t.size_eq; simpa [r.2] using this⟩

/-! ## Shapes that fit -/

def fittedExtent? (m n : Nat) : Option Nat :=
  if m = n then some m else if m = 1 then some n else if n = 1 then some m else none

/-- the common shape of two shapes given from the last axis on -/
def fittedReversed? : List Nat → List Nat → Option (List Nat)
  | [], t => some t
  | s, [] => some s
  | m :: s, n :: t => do
    let k ← fittedExtent? m n
    let r ← fittedReversed? s t
    return k :: r

/-- the common shape of two shapes aligned at their last axes -/
def fitted? (s t : List Nat) : Option (List Nat) := (fittedReversed? s.reverse t.reverse).map List.reverse

/-- the multi-index of an array of shape `s` that stands behind a multi-index of a larger shape -/
def project (s ix : List Nat) : List Nat :=
  (s.zip (ix.drop (ix.length - s.length))).map fun p => if p.1 = 1 then 0 else p.2

/-- two arrays combined entry by entry over their common shape -/
def Tensor.zipFitted? {α β γ : Type} (f : α → β → γ) (x : Tensor α) (y : Tensor β) (fx : α) (fy : β) :
    Option (Tensor γ) :=
  (fitted? x.shape y.shape).map fun s =>
    .ofFn s fun ix => f (x.get fx (project x.shape ix)) (y.get fy (project y.shape ix))

end MomentProgram
