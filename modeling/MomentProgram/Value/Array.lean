/-
Values read as arrays.

Nested lists become an array whose shape is found first: lists of different lengths or depths, and lists nested too deeply, are refused
before any item is looked at. `Value.toTensor` reads the cells as doubles, an absent cell as NaN; `Value.toIntTensor` reads them as
64-bit whole numbers, dropping fractions. An unsized number that has no such reading is refused, while a sized one is stored as
its bits fall. The first cell in row-major order that has no reading is the one that is reported.
-/
import MomentProgram.Value.Real
import MomentProgram.Array.Tensor

namespace MomentProgram

/-- the whole number of so many bits, with or without a sign, that has the same low bits -/
def wrapTo (bits : Nat) (isSigned : Bool) (n : Int) : Int :=
  if isSigned then (n + Nat.pow 2 (bits - 1)) % Nat.pow 2 bits - Nat.pow 2 (bits - 1) else n % Nat.pow 2 bits

/-- the 64-bit number with a sign that has the same low bits -/
def wrapWord (n : Int) : Int := wrapTo 64 true n

/-- the whole numbers of 64 bits with a sign -/
def fitsWord (n : Int) : Bool := decide (-Nat.pow 2 63 ≤ n ∧ n < Nat.pow 2 63)

def word (n : Int) : Outcome Int := if fitsWord n then .ok n else .error .tooLarge

namespace Value

mutual

/-- the shape of a value read as an array, `none` for ragged lists -/
def shape? : Value → Option (List Nat)
  | .list vs => listShape? vs
  | .tuple vs => listShape? vs
  | .array _ shape _ => some shape
  | _ => some []

/-- the shape of a list with given items -/
def listShape? (vs : List Value) : Option (List Nat) :=
  match shapes? vs with
  | none => none
  | some [] => some [0]
  | some (s :: ss) => if ss.all fun t => t == s then some ((ss.length + 1) :: s) else none

def shapes? : List Value → Option (List (List Nat))
  | [] => some []
  | v :: vs => match shape? v, shapes? vs with
    | some s, some ss => some (s :: ss)
    | _, _ => none

end

mutual

/-- the cells of a value read as an array, in row-major order; what is made of the numbers of typed arrays is given -/
def leaves (typed : Cell → Number → Value) : Value → List Value
  | .list vs => leavesOf typed vs
  | .tuple vs => leavesOf typed vs
  | .array c _ ns => ns.map (typed c)
  | v => [v]

def leavesOf (typed : Cell → Number → Value) : List Value → List Value
  | [] => []
  | v :: vs => leaves typed v ++ leavesOf typed vs

end

/-- an array has at most so many axes -/
def axisLimit : Nat := 64

/-- a number of a typed array as a sized number -/
def sizedEntry (c : Cell) (n : Number) : Value := .number n (some c)

def cellsWith (typed : Cell → Number → Value) (v : Value) : Outcome (Tensor Value) :=
  match v.shape? with
  | none => .error .ragged
  | some s =>
    if axisLimit < s.length then .error .ragged
    else match Tensor.ofList? s (v.leaves typed) with
      | some t => .ok t
      | none => .error .ragged

/-- a value as an array of its cells, those of typed arrays sized -/
def cells (v : Value) : Outcome (Tensor Value) := v.cellsWith sizedEntry

/-- a cell as a double; an absent one is NaN -/
def cellToFloat : Value → Outcome Float
  | .null => .ok (0.0 / 0.0)
  | v => v.toFloat

def toTensor (v : Value) : Outcome (Tensor Float) := v.cells.bind fun t => t.mapE cellToFloat

def toFloats (v : Value) : Outcome (List Float) := v.toTensor.map Tensor.toList

/-- the 64-bit number that a sized number is stored as; what is out of reach is stored as the least one -/
def storedWord : Number → Int
  | .bool b => if b then 1 else 0
  | .int n => wrapWord n
  | .float x => nearWord x
  | .complex re _ => nearWord re
  | _ => -(Nat.pow 2 63 : Int)
where
  nearWord (x : Float) : Int := match (Number.truncateFloat x).bind word with
    | .ok n => n
    | .error _ => -(Nat.pow 2 63 : Int)

/-- the whole number that an unsized cell holds, its fraction dropped -/
def cellToWhole : Value → Outcome Int
  | .number n _ => n.truncate
  | .text s => wholeOfText .any s.toList
  | .member _ s => wholeOfText .any s.toList
  | .bytes b => wholeOfText .ascii (bytesText b)
  | .foreign _ c => c.index
  | _ => .error .notNumeric
where
  wholeOfText (script : Script) (cs : List Char) : Outcome Int := match Numeral.readInt? script cs with
    | some n => .ok n
    | none => .error .unreadable

def cellToWord : Value → Outcome Int
  | .number n (some _) => .ok (storedWord n)
  | v => v.cellToWhole.bind word

def toIntTensor (v : Value) : Outcome (Tensor Int) := v.cells.bind fun t => t.mapE cellToWord

def toInts (v : Value) : Outcome (List Int) := v.toIntTensor.map Tensor.toList

end Value

end MomentProgram
