/-
Values read as grids of tags.

A square array counts as one of whole numbers if its cells have a common sort of whole numbers: truth values alone are none, nor
are numbers of any other kind, nor unsized numbers beyond 64 bits, nor numbers that need a sign next to numbers that need the
64th bit. Cells of a common sort are then kept as 64-bit numbers with a sign, so from 2^63 on they wrap to below zero.
-/
import MomentProgram.Value.Content

namespace MomentProgram

namespace Value

/-- the whole number in a cell of a common sort -/
def tagOf : Value → Int
  | .number (.bool b) _ => if b then 1 else 0
  | .number (.int n) _ => wrapWord n
  | _ => 0

def areTags : Content → Bool
  | .cells c => c.isWhole
  | _ => false

def toTags (v : Value) : Outcome ((d : Nat) × Grid d Int) :=
  v.cells.bind fun t => match t.toGrid? with
    | none => .error (.tagsNotSquare t.shape)
    | some ⟨d, g⟩ =>
      if d = 0 ∨ areTags (v.contentOf t.toList) then .ok ⟨d, g.map tagOf⟩ else .error .tagsNotIntegers

end Value

end MomentProgram
