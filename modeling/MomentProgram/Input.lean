/-
Extracted matrices, Gram matrices and programs from values as given.

Each function reads its values in a fixed order and hands them to the checked constructor of what it builds, so the first value
that cannot be read is the one that is reported, before any check that looks at values together.
-/
import MomentProgram.Program.Stated
import MomentProgram.Relaxation
import MomentProgram.Value.Scaled
import MomentProgram.Value.Tags

namespace MomentProgram

namespace Value

/-- the cells of an array whose tag equals an index, each with its scaled phase -/
def extract (tags phases index : Value) (scale : Option Value) : Outcome (SymMatrix Float) := do
  let ts ← tags.gather
  let ps ← phases.toTensor
  match ts.cells.shape with
  | [] => throw .missingEntry
  | rows :: _ => SymMatrix.ofMask rows (← matching ts index) ps (timesEach scale)

end Value

namespace Gram

/-- the Gram matrix of values for tags and phases, as its size and itself -/
def ofValues (tags : Value) (phases : Option Value) : Outcome ((d : Nat) × Gram d Float) := do
  let ts ← tags.toTags
  let g ← ofTags ts.2 (phases.map Value.toTensor)
  return ⟨ts.1, g⟩

/-- the tags as an array of 64-bit whole numbers -/
def tagCells {d : Nat} (g : Gram d Float) : Gathered :=
  ⟨.cells (.int 64 true), (Tensor.ofGrid g.tags).map fun tag => .number (.int tag) (some (.int 64 true))⟩

/-- the cells whose tag equals an index, each with its scaled phase -/
def extract {d : Nat} (g : Gram d Float) (index : Value) (scale : Option Value) : Outcome (SymMatrix Float) := do
  SymMatrix.ofMask d (← Value.matching g.tagCells index) (.ofGrid g.phases) (Value.timesEach scale)

end Gram

/-- the program of values for dimension, offset and bounds, and of parts that may be no matrices, or no sequence at all -/
def StatedProgram.ofValues (dim offset bounds : Value) (fixed : Option StatedMatrix)
    (constraints : Option (List (Option StatedMatrix))) : Outcome StatedProgram :=
  let parts := match constraints with
    | some l => .ok l
    | none => .error .notIterable
  ofParts dim offset.toOffset fixed parts bounds.toFloats

end MomentProgram
