/-
Sized numbers: values stored in cells of a given sort.

A cell of truth values stores whether a value counts as true, one of whole numbers drops the fraction, one of floating-point numbers
rounds to its precision and has infinity beyond its range. An unsized whole number must be one that the bits of the cell reach;
anything else is first a 64-bit number whose low bits are kept. `Cell.ofValue` makes a sized number of a single value and a typed
array of a list, `Cell.array` an array of a stated shape.
-/
import MomentProgram.Value.Array
import MomentProgram.Value.NumberText

namespace MomentProgram

namespace Cell

/-- the whole numbers of a count of bits, with or without a sign -/
def spans (bits : Nat) (isSigned : Bool) (n : Int) : Bool :=
  if isSigned then decide (-Nat.pow 2 (bits - 1) ≤ n ∧ n < Nat.pow 2 (bits - 1)) else decide (0 ≤ n ∧ n < Nat.pow 2 bits)

/-- whether a whole number passes through 64 bits on its way to a cell; without a sign, the larger half passes too -/
def passes (isSigned : Bool) (n : Int) : Bool := fitsWord n || (!isSigned && spans 64 false n)

/-- an unsized value as a whole number of so many bits -/
def storeWhole (bits : Nat) (isSigned : Bool) (v : Value) : Outcome Int := do
  let n ← v.cellToWhole
  let reached := match v with
    | .number (.int n) _ => spans bits isSigned n
    | .number (.bool _) _ => true
    | _ => passes isSigned n
  if reached then return wrapTo bits isSigned n else throw .tooLarge

/-- a sized number as one of a sort of whole numbers; a real one out of reach is the least 64-bit number -/
def castWhole (bits : Nat) (isSigned : Bool) (n : Number) : Int :=
  let real (x : Float) : Int := match Number.truncateFloat x with
    | .ok k => if passes isSigned k then k else -(Nat.pow 2 63 : Int)
    | .error _ => -(Nat.pow 2 63 : Int)
  wrapTo bits isSigned (match n with
    | .bool b => if b then 1 else 0
    | .int k => k
    | .float x => real x
    | .complex re _ => real re
    | _ => 0)

def complexOfText (s : Script) (cs : List Char) : Outcome (Float × Float) :=
  match Numeral.readComplex? s cs with
  | some (x, y) => .ok (x.toFloat, y.toFloat)
  | none => .error .unreadable

/-- both parts of the number in a cell; an absent one is NaN in both -/
def cellToComplex : Value → Outcome (Float × Float)
  | .null => .ok (0.0 / 0.0, 0.0 / 0.0)
  | .text s => complexOfText .any s.toList
  | .member _ s => complexOfText .any s.toList
  | .bytes b => complexOfText .ascii (bytesText b)
  | v => v.toComplex

/-- a value as the number that a cell of the sort holds -/
def store (c : Cell) (v : Value) : Outcome Number :=
  match c, v with
  | .bool, v => v.truthy.map .bool
  | .int bits isSigned, .number n (some _) => .ok (.int (castWhole bits isSigned n))
  | .int bits isSigned, v => (storeWhole bits isSigned v).map .int
  | .float w, v => v.cellToFloat.map fun x => .float (w.format.narrow x)
  | .complex w, v => (cellToComplex v).map fun z => .complex (w.format.narrow z.1) (w.format.narrow z.2)

/-- a value as a sized number, a list as a typed array -/
def ofValue (c : Cell) (v : Value) : Outcome Value := do
  let t ← v.cells
  let ns ← t.toList.mapM c.store
  match t.shape, ns with
  | [], [n] => return .number n (some c)
  | shape, ns => return .array c shape ns

/-- the shape of so many numbers; minus one stands for the extent that the others leave -/
def fittingShape? (size : Nat) (shape : List Int) : Option (List Nat) :=
  let known := shapeSize ((shape.filter (· != -1)).map Int.toNat)
  let left := if known = 0 then 0 else size / known
  let found := shape.map fun n => if n = -1 then left else n.toNat
  if shape.any (· < -1) || 1 < shape.count (-1) || shapeSize found != size then none else some found

/-- the numbers of a value as a typed array of a shape -/
def array (c : Cell) (shape : List Int) (v : Value) : Outcome Value := do
  let t ← v.cells
  let ns ← t.toList.mapM c.store
  match fittingShape? ns.length shape with
  | some s => return .array c s ns
  | none => throw .incompatibleShapes

def ofName? (s : String) : Option Cell :=
  let sorts : List Cell := [.bool, .int 8 true, .int 16 true, .int 32 true, .int 64 true, .int 8 false, .int 16 false,
    .int 32 false, .int 64 false, .float .half, .float .single, .float .double, .complex .single, .complex .double]
  if s = "bool_" then some .bool else sorts.find? fun c => c.name == s

end Cell

end MomentProgram
