/-
The packed layout of a symmetric matrix.

The lower triangle is stacked column by column: column `c` gives rows `c, …, d - 1`. `pack` reads a square array that way and
ignores what is above the diagonal; `unpack` writes every number into its cell and then, in a second pass, into the mirrored one.
A `d × d` triangle has `packedLength d` numbers, a formula that is asked for negative dimensions as well.
-/
import MomentProgram.Fault
import MomentProgram.Array.Tensor

namespace MomentProgram

/-- `dim * (dim + 1) / 2`, rounded down, for whole numbers of any size and sign -/
def packedLength (dim : Int) : Int := (dim * (dim + 1)).fdiv 2

namespace Packed

variable {α : Type}

/-- the cells of the lower triangle, column by column -/
def cells (d : Nat) : List (Fin d × Fin d) :=
  (List.finRange d).flatMap fun c => ((List.finRange d).filter fun r => c ≤ r).map fun r => (r, c)

/-- the lower triangle of a grid, column by column -/
def ofGrid {d : Nat} (g : Grid d α) : List α := (cells d).map fun p => g.get p.1 p.2

/-- the symmetric grid of a packed triangle -/
def toGrid [Scalar α] (d : Nat) (v : List α) : Grid d α :=
  ((Grid.ofFn fun _ _ => Scalar.zero).scatter (cells d) v).scatter ((cells d).map Prod.swap) v

end Packed

/-- the packed lower triangle of a square array -/
def pack {α : Type} (t : Tensor α) : Outcome (List α) :=
  match t.toGrid? with
  | some ⟨_, g⟩ => .ok (Packed.ofGrid g)
  | none => .error (.unpackable t.shape)

/-- the symmetric array of a packed triangle whose length fits the dimension -/
def unpack {α : Type} [Scalar α] (dim : Int) (v : List α) : Outcome ((d : Nat) × Grid d α) :=
  if (v.length : Int) ≠ packedLength dim then .error (.packedCount (toString dim) (toString (packedLength dim)) v.length)
  else if dim < 0 then .error .negativeExtent
  else .ok ⟨dim.toNat, Packed.toGrid dim.toNat v⟩

end MomentProgram
