/-
When two values are equal.

Unsized numbers are compared exactly. A sized number meets an unsized one in its own format, and another sized number in the least
sort that holds both, so rounding can make unequal numbers equal there; whole numbers are compared exactly in any sort. Text equals
text and bytes equal bytes. `Value.matching` compares the cells of two arrays over the shape that both fit: texts in arrays do not
show zero characters at their end, and text never equals a number or bytes.
-/
import MomentProgram.Value.Content
import MomentProgram.Value.Exact
import MomentProgram.Value.NumberText

namespace MomentProgram

namespace Cell

/-- the sort in which a sized number meets an unsized one -/
def meeting (c : Cell) (n : Number) : Cell :=
  match n with
  | .int _ => if c = .bool then .int 64 true else c
  | .float _ => match c with
    | .bool | .int _ _ => .float .double
    | c => c
  | .complex _ _ => match c with
    | .bool | .int _ _ => .complex .double
    | .float w => .complex (w.join .single)
    | c => c
  | _ => c

/-- an unsized number that a sort is asked to hold -/
def accepts (c : Cell) (n : Number) : Outcome Unit :=
  match c, n with
  | .float _, .int k => (Number.intToFloat k).map fun _ => ()
  | .complex _, .int k => (Number.intToFloat k).map fun _ => ()
  | _, _ => .ok ()

def sameIn (c : Cell) (m n : Number) : Bool :=
  match c.convert m, c.convert n with
  | .float x, .float y => x == y
  | .complex a b, .complex x y => a == x && b == y
  | m, n => m.same n

end Cell

namespace Number

/-- a whole number or a truth value -/
def isWhole : Number → Bool
  | .bool _ => true
  | .int _ => true
  | _ => false

/-- an exact number that is no whole number by kind -/
def isExact : Number → Bool
  | .ratio _ _ => true
  | .decimal _ => true
  | _ => false

/-- the question whether a sized number equals an unsized one -/
def equalSized (c : Cell) (m n : Number) : Outcome Bool :=
  match c, n with
  | .bool, .int k => (word k).map fun _ => m.same n
  | _, .bool _ => .ok (m.same n)
  | c, n => (Cell.accepts (c.meeting n) n).map fun _ => (c.meeting n).sameIn m n

/-- the question whether two numbers, sized or not, are equal -/
def equalAs (m : Number) (c : Option Cell) (n : Number) (d : Option Cell) : Outcome Bool :=
  if m.isExact || n.isExact then m.equal n
  else match c, d with
  | none, none => .ok (m.same n)
  | some c, none => equalSized c m n
  | none, some d => equalSized d n m
  | some c, some d => .ok (if m.isWhole && n.isWhole then m.same n else (c.join d).sameIn m n)

end Number

namespace Value

def text? : Value → Option String
  | .text s => some s
  | .member _ s => some s
  | _ => none

/-- the question whether two single values are equal -/
def equalItems : Value → Value → Outcome Bool
  | .null, .null => .ok true
  | .number m c, .number n d => m.equalAs c n d
  | .bytes a, .bytes b => .ok (a == b)
  | .path a, .path b => .ok (a == b)
  | a, b => .ok (match a.text?, b.text? with
    | some s, some t => s == t
    | _, _ => false)

/-- a cell of an array of texts or bytes, without the zero characters at its end -/
def cellText (v : Value) : Outcome (List Char) :=
  let trimmed (cs : List Char) : List Char := (cs.reverse.dropWhile fun c => c.toNat == 0).reverse
  match v with
  | .number n (some c) => (c.bare n).map String.toList
  | .number n none => n.printed.map String.toList
  | .bytes b => .ok (trimmed (bytesText b))
  | v => .ok (trimmed ((v.text?.getD "").toList))

/-- a cell of an array among objects: numbers of a typed array lose their sort -/
def asObject (content : Content) (v : Value) : Value :=
  match content, v with
  | .cells _, .number n _ => .number n none
  | _, v => v

/-- a pair of cells of two arrays with given contents is equal -/
def equalCells (a b : Content) (x y : Value) : Outcome Bool :=
  match a, b with
  | .cells _, .cells _ => x.equalItems y
  | .text, .text => do return (← x.cellText) == (← y.cellText)
  | .bytes, .bytes => do return (← x.cellText) == (← y.cellText)
  | .objects, _ => (x.asObject a).equalItems (y.asObject b)
  | _, .objects => (x.asObject a).equalItems (y.asObject b)
  | _, _ => .ok false

/-- cells compared over the common shape of two arrays -/
def compareCells (a b : Gathered) : Outcome (Tensor Bool) :=
  match Tensor.zipFitted? Prod.mk a.cells b.cells .null .null with
  | none => .error .incompatibleShapes
  | some pairs => pairs.mapE fun p => equalCells a.content b.content p.1 p.2

/-- whether a number takes the format of the array that it meets -/
def isWeak : Number → Bool
  | .int _ => true
  | .float _ => true
  | .complex _ _ => true
  | _ => false

/-- the cells of an array that equal a value, or those of another array -/
def matching (a : Gathered) (v : Value) : Outcome (Tensor Bool) :=
  match a.content, v with
  | .cells c, .number n none =>
    if isWeak n then do
      let _ ← Number.equalSized c (c.convert (.bool false)) n
      a.cells.mapE fun x => x.equalItems v
    else (v.gather).bind (compareCells a)
  | _, v => (v.gather).bind (compareCells a)

def isArray : Value → Bool
  | .array _ _ _ => true
  | _ => false

/-- the question whether two values are equal; arrays answer if they hold one number -/
def equal (a b : Value) : Outcome Bool :=
  if a.isArray || b.isArray then do
    let t ← if a.isArray then (a.gather).bind fun g => matching g b else (b.gather).bind fun g => matching g a
    match t.toList with
    | [r] => return r
    | _ => throw .notSingle
  else a.equalItems b

end Value

end MomentProgram
