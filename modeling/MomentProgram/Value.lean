/-
The values that enter a computation.

Coefficients, tags, phases, dimensions and solver answers come as numbers of several kinds, as text, as lists, as typed arrays, as
objects of a foreign field that offer conversions of their own, or as results of earlier computations. `Value` holds them as given;
what each is worth as a real number, a whole number, a cell of an array, a dimension or a key is decided by the modules beside
this one.
-/
import MomentProgram.Number.ExactDecimal

namespace MomentProgram

/-- the widths of floating-point numbers; those wider than doubles are left out, so no cell and no sized number has one -/
inductive Width where
  | half
  | single
  | double
  deriving DecidableEq, Repr, Inhabited

def Width.format : Width → Format
  | .half => .half
  | .single => .single
  | .double => .double

/-- the sort of a sized number: what a cell of a typed array holds -/
inductive Cell where
  | bool
  | int (bits : Nat) (signed : Bool)
  | float (width : Width)
  /-- both parts of the given width -/
  | complex (width : Width)
  deriving DecidableEq, Repr, Inhabited

inductive Number where
  | bool (b : Bool)
  | int (n : Int)
  | float (x : Float)
  | complex (re im : Float)
  /-- an exact quotient in lowest terms -/
  | ratio (num : Int) (den : Nat)
  | decimal (x : ExactDecimal)
  deriving Repr, Inhabited

/-- what a conversion offered by a foreign object gives -/
inductive Answer where
  | number (n : Number) (cell : Option Cell)
  /-- something that is no number -/
  | other
  | refuses (f : Fault)
  deriving Repr, Inhabited

/-- the conversions that a foreign object offers -/
structure Conversions where
  toFloat : Option Answer
  toComplex : Option Answer
  toIndex : Option Answer
  deriving Repr, Inhabited

/-- a value as given -/
inductive Value where
  | null
  /-- a number, sized if it comes from a typed array -/
  | number (n : Number) (cell : Option Cell)
  | text (s : String)
  | bytes (b : List Nat)
  /-- an object of a foreign field, known by its printed name and its conversions -/
  | foreign (name : String) (conversions : Conversions)
  | list (items : List Value)
  | tuple (items : List Value)
  /-- a typed array, row by row -/
  | array (cell : Cell) (shape : List Nat) (entries : List Number)
  /-- a text that is one of a closed list, with the label it has there -/
  | member (label text : String)
  /-- a path in its written form -/
  | path (text : String)
  /-- fields with their labels; only some records can be keys of a table -/
  | record (name : String) (keyed : Bool) (labels : List String) (fields : List Value)
  /-- anything else, by the name of what it is -/
  | thing (name : String)
  deriving Repr, Inhabited

namespace Value

/-- an unsized whole number -/
def ofInt (n : Int) : Value := .number (.int n) none

/-- an unsized double -/
def ofFloat (x : Float) : Value := .number (.float x) none

def ofBool (b : Bool) : Value := .number (.bool b) none

end Value

end MomentProgram
