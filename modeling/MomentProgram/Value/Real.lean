/-
What a value is worth as a real number, as a complex number, as a whole number and as a truth value.

`toFloat` is the one conversion to a double: exact numbers are rounded once, text is read as a numeral of any script and bytes
as one of ASCII, a foreign object is asked for its own conversion. A complex number has no real value here, whatever its imaginary
part, unless it is sized: then it gives the real part up. Of arrays only those without axes are single numbers. `toComplex` gives
the two parts of a number that has them.
-/
import MomentProgram.Value

namespace MomentProgram

namespace Number

/-- a truth value as one or zero -/
def ofFlag (b : Bool) : Float := if b then 1.0 else 0.0

/-- the double nearest to an exact quotient -/
def ratioToFloat (num : Int) (den : Nat) : Outcome Float :=
  match nearestDouble? num den with
  | some x => .ok x
  | none => .error .tooLarge

def intToFloat (n : Int) : Outcome Float := ratioToFloat n 1

def toFloat : Number → Outcome Float
  | .bool b => .ok (ofFlag b)
  | .int n => intToFloat n
  | .float x => .ok x
  | .complex _ _ => .error .notNumeric
  | .ratio num den => ratioToFloat num den
  | .decimal x => if x.signals then .error .unreadable else .ok x.numeral.toFloat

/-- both parts of a number, a real one having imaginary part zero -/
def toComplex : Number → Outcome (Float × Float)
  | .complex re im => .ok (re, im)
  | n => match n.toFloat with
    | .ok x => .ok (x, 0.0)
    | .error e => .error e

def truncateFloat (x : Float) : Outcome Int :=
  match Reading.ofFloat x with
  | .finite neg m => .ok (if neg then -((m / unitsPerOne : Nat) : Int) else (m / unitsPerOne : Nat))
  | .infinite _ => .error .tooLarge
  | .nan => .error .unreadable

def truncate : Number → Outcome Int
  | .bool b => .ok (if b then 1 else 0)
  | .int n => .ok n
  | .float x => truncateFloat x
  | .complex _ _ => .error .notNumeric
  | .ratio num den => .ok (num.tdiv den)
  | .decimal (.undefined _ _ _) => .error .unreadable
  | .decimal x => match x.truncate? with
    | some n => .ok n
    | none => .error .tooLarge

def truthy : Number → Bool
  | .bool b => b
  | .int n => n != 0
  | .float x => x != 0.0
  | .complex re im => re != 0.0 || im != 0.0
  | .ratio num _ => num != 0
  | .decimal (.finite _ digits _) => digits != 0
  | .decimal _ => true

end Number

/-- a foreign conversion to a double counts only if it gives a double -/
def Answer.toFloat : Answer → Outcome Float
  | .number (.float x) none => .ok x
  | .number (.float x) (some (.float .double)) => .ok x
  | .number _ _ => .error .notNumeric
  | .other => .error .notNumeric
  | .refuses f => .error f

/-- a foreign conversion to a complex number counts only if it gives one in double precision -/
def Answer.toComplex : Answer → Outcome (Float × Float)
  | .number (.complex re im) none => .ok (re, im)
  | .number (.complex re im) (some (.complex .double)) => .ok (re, im)
  | .number _ _ => .error .notNumeric
  | .other => .error .notNumeric
  | .refuses f => .error f

/-- a foreign conversion to a whole number counts only if it gives one of any size -/
def Answer.toIndex : Answer → Outcome Int
  | .number (.int n) none => .ok n
  | .number (.bool b) none => .ok (if b then 1 else 0)
  | .number _ _ => .error .notNumeric
  | .other => .error .notNumeric
  | .refuses f => .error f

namespace Conversions

def index (c : Conversions) : Outcome Int :=
  match c.toIndex with
  | some a => a.toIndex
  | none => .error .notNumeric

/-- a foreign object as a double: its own conversion, or else its whole number -/
def real (c : Conversions) : Outcome Float :=
  match c.toFloat with
  | some a => a.toFloat
  | none => c.index.bind Number.intToFloat

/-- a foreign object as a complex number: its own conversion, or else its real value -/
def complex (c : Conversions) : Outcome (Float × Float) :=
  match c.toComplex with
  | some a => a.toComplex
  | none => c.real.map fun x => (x, 0.0)

end Conversions

def bytesText (b : List Nat) : List Char := b.map Char.ofNat

def floatOfText (s : Script) (cs : List Char) : Outcome Float :=
  match readDouble? s cs with
  | some x => .ok x
  | none => .error .unreadable

namespace Value

/-- whether a value is a complex number by kind, plain or sized -/
def isComplex : Value → Bool
  | .number (.complex _ _) _ => true
  | _ => false

/-- the double that a number stands for; a sized complex number gives up its imaginary part -/
def numberToFloat (n : Number) (cell : Option Cell) : Outcome Float :=
  match n, cell with
  | .complex re _, some _ => .ok re
  | n, _ => n.toFloat

def toFloat : Value → Outcome Float
  | .number n c => numberToFloat n c
  | .text s => floatOfText .any s.toList
  | .member _ s => floatOfText .any s.toList
  | .bytes b => floatOfText .ascii (bytesText b)
  | .foreign _ c => c.real
  | .array _ [] [n] => n.toFloat
  | _ => .error .notNumeric

/-- the two parts of the complex number that a value stands for; text is not read here -/
def toComplex : Value → Outcome (Float × Float)
  | .number n _ => n.toComplex
  | .foreign _ c => c.complex
  | .array _ [] [n] => n.toComplex
  | _ => .error .notNumeric

/-- whether a value counts as true: numbers other than zero, texts and lists with content, and all objects; an array is asked only
if it holds one number -/
def truthy : Value → Outcome Bool
  | .null => .ok false
  | .number n _ => .ok n.truthy
  | .text s => .ok (s != "")
  | .member _ s => .ok (s != "")
  | .bytes b => .ok !b.isEmpty
  | .list vs => .ok !vs.isEmpty
  | .tuple vs => .ok !vs.isEmpty
  | .array _ _ [n] => .ok n.truthy
  | .array _ _ _ => .error .notSingle
  | _ => .ok true

def characters (s : String) : List Value := s.toList.map fun c => .text (String.singleton c)

/-- the elements of a value that is a sequence: the items of a list, the characters of a text, the numbers of bytes, the rows of
an array -/
def items? : Value → Option (List Value)
  | .list vs => some vs
  | .tuple vs => some vs
  | .text s => some (characters s)
  | .member _ s => some (characters s)
  | .bytes b => some (b.map fun n : Nat => ofInt n)
  | .array c [_] ns => some (ns.map fun n => .number n (some c))
  | .array c (k :: shape) ns =>
    let size := shape.foldr (· * ·) 1
    some ((List.range k).map fun i => .array c shape ((ns.drop (i * size)).take size))
  | _ => none

end Value

end MomentProgram
