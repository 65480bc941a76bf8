/-
What the cells of an array are together.

Cells of several sorts are brought to the least sort that holds them all (`Cell.join`): whole numbers of more bits, a floating-point
format, complex numbers. Text next to numbers makes all of them text; whatever is neither number, text nor bytes, and exact numbers
without a sort, keep the cells as the objects they are. `Value.gather` reads a value as an array of common content.
-/
import MomentProgram.Value.Array

namespace MomentProgram

/-- what the cells of an array are together -/
inductive Content where
  | cells (c : Cell)
  | text
  | bytes
  | objects
  deriving DecidableEq, Repr

def Width.join : Width → Width → Width
  | .double, _ => .double
  | _, .double => .double
  | .single, _ => .single
  | _, .single => .single
  | .half, .half => .half

/-- the floating-point numbers that hold whole numbers of a count of bits -/
def Width.ofBits (bits : Nat) : Width := if bits ≤ 8 then .half else if bits ≤ 16 then .single else .double

namespace Cell

/-- whole numbers that hold those of two counts of bits, one with a sign and one without -/
def joinMixed (signedBits unsignedBits : Nat) : Cell :=
  if unsignedBits < signedBits then .int signedBits true
  else if unsignedBits < 64 then .int (2 * unsignedBits) true
  else .float .double

/-- the width of floating-point numbers that hold a sort -/
def width : Cell → Width
  | .bool => .half
  | .int bits _ => .ofBits bits
  | .float w => w
  | .complex w => w

/-- the least sort that holds two -/
def join : Cell → Cell → Cell
  | .bool, c => c
  | c, .bool => c
  | .int a s, .int b t => if s = t then .int (max a b) s else if s then joinMixed a b else joinMixed b a
  | .complex w, c => .complex ((w.join c.width).join .single)
  | c, .complex w => .complex ((w.join c.width).join .single)
  | a, b => .float (a.width.join b.width)

def isWhole : Cell → Bool
  | .int _ _ => true
  | _ => false

/-- a number as one of a floating-point format -/
def toWidth (w : Width) (n : Number) : Float :=
  match n with
  | .bool b => Number.ofFlag b
  | .int k => w.format.narrow (match nearestDouble? k 1 with
    | some x => x
    | none => 0.0)
  | .float x => w.format.narrow x
  | .complex re _ => w.format.narrow re
  | _ => 0.0

/-- a number of one sort as one of a sort that holds it -/
def convert (c : Cell) (n : Number) : Number :=
  match c, n with
  | .bool, n => n
  | .int _ _, .bool b => .int (if b then 1 else 0)
  | .int _ _, n => n
  | .float w, n => .float (toWidth w n)
  | .complex w, .complex re im => .complex (w.format.narrow re) (w.format.narrow im)
  | .complex w, n => .complex (toWidth w n) 0.0

end Cell

namespace Content

def join : Content → Content → Content
  | .cells a, .cells b => .cells (a.join b)
  | .objects, _ => .objects
  | _, .objects => .objects
  | .text, _ => .text
  | _, .text => .text
  | _, _ => .bytes

def ofInt (n : Int) : Content :=
  if fitsWord n then .cells (.int 64 true) else if 0 ≤ n ∧ n < Nat.pow 2 64 then .cells (.int 64 false) else .objects

def ofCell : Value → Content
  | .number (.bool _) none => .cells .bool
  | .number (.int n) none => ofInt n
  | .number (.float _) none => .cells (.float .double)
  | .number (.complex _ _) none => .cells (.complex .double)
  | .number _ (some c) => .cells c
  | .text _ => .text
  | .member _ _ => .text
  | .bytes _ => .bytes
  | _ => .objects

/-- the common content of some cells; of none, doubles -/
def ofCells : List Value → Content
  | [] => .cells (.float .double)
  | v :: vs => vs.foldl (fun c w => c.join (ofCell w)) (ofCell v)

end Content

structure Gathered where
  content : Content
  cells : Tensor Value

namespace Value

/-- a number of a typed array as an unsized number -/
def plainEntry (_ : Cell) (n : Number) : Value := .number n none

/-- the content of a value without cells: the sort of a typed array, or doubles -/
def contentOf (v : Value) (leaves : List Value) : Content :=
  match v with
  | .array c _ _ => .cells c
  | _ => .ofCells leaves

/-- a value as an array of common content; numbers of typed arrays among objects lose their sort -/
def gather (v : Value) : Outcome Gathered := do
  let t ← v.cells
  match v.contentOf t.toList with
  | .objects => return ⟨.objects, ← v.cellsWith plainEntry⟩
  | .cells c => return ⟨.cells c, t.map fun leaf => match leaf with
    | .number n _ => .number (c.convert n) (some c)
    | leaf => leaf⟩
  | content => return ⟨content, t⟩

end Value

end MomentProgram
