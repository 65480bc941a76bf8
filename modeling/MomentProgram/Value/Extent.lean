/-
Values offered as the dimension of a matrix.

A dimension may be offered as a number of any kind or as an array of one number. It is compared with zero and with row numbers
(`belowZero`, `reaches`), it tells cells apart by row · dimension + column in its own arithmetic (`keysClash`), and the length of a
packed triangle is computed in that arithmetic as well (`packedLength`): whole numbers of a sort wrap, reals round, exact numbers
stay exact. Only whole numbers and unsized truth values count cells (`count?`), so only they give a matrix a full form.
-/
import MomentProgram.Symmetric.Packed
import MomentProgram.Value.Equality
import MomentProgram.Value.Printed

namespace MomentProgram

namespace Value

/-- the one number that a dimension is -/
def extentNumber : Value → Outcome (Number × Option Cell)
  | .number n c => .ok (n, c)
  | .array c _ [n] => .ok (n, some c)
  | .array _ _ _ => .error .notSingle
  | _ => .error .unordered

/-- whether a number is below zero, or else whether it is zero, as far as it can be asked -/
def againstZero (n : Number) (c : Option Cell) : Outcome (Bool × Bool) :=
  match n, c with
  | .complex _ _, none => .error .unordered
  | .complex re im, some _ => .ok ((re < 0.0 && !im.isNaN) || (re == 0.0 && im < 0.0), re == 0.0 && im == 0.0)
  | n, _ =>
    if n.isUndefined then .error .invalidDecimal
    else .ok (n.order? (.int 0) == some .lt, n.order? (.int 0) == some .eq)

def belowZero (v : Value) : Outcome Bool := do
  let (n, c) ← v.extentNumber
  return (← againstZero n c).1

def notPositive (v : Value) : Outcome Bool := do
  let (n, c) ← v.extentNumber
  let r ← againstZero n c
  return r.1 || r.2

/-- an unsized whole number above zero is no refused extent -/
theorem notPositive_ofInt {n : Int} (h : 0 < n) : (ofInt n).notPositive = .ok false := by
  have hcompare : compare (n * (1 : Nat)) (0 * (1 : Nat)) = .gt := by
    rw [Int.compare_eq_gt]
    omega
  show Except.ok ((some (compare (n * (1 : Nat)) (0 * (1 : Nat))) == some .lt) ||
    (some (compare (n * (1 : Nat)) (0 * (1 : Nat))) == some .eq)) = _
  rw [hcompare]
  rfl

/-- an unsized whole number equals itself -/
theorem equal_ofInt (n : Int) : (ofInt n).equal (.ofInt n) = .ok true := by
  show Except.ok ((compare (n * (1 : Nat)) (n * (1 : Nat)) == .eq) && true) = _
  rw [Int.compare_eq_eq.2 rfl]
  rfl

def wordToFloat (k : Int) : Float := Cell.toWidth .double (.int k)

/-- whether a row number is the dimension or beyond -/
def rowReaches (n : Number) (row : Int) : Bool :=
  match n with
  | .float x => decide (x ≤ wordToFloat row)
  | .complex re im => (re < wordToFloat row && !im.isNaN) || (wordToFloat row == re && im ≤ 0.0)
  | n => match (Number.int row).order? n with
    | some o => o != .lt
    | none => false

def reaches (v : Value) (row : Int) : Outcome Bool := (v.extentNumber).map fun p => rowReaches p.1 row

/-! ## Keys of cells -/

/-- the key of a cell in the arithmetic of a dimension -/
inductive ExtentKey where
  | whole (k : Int)
  | real (x : Float)
  | complex (re im : Float)
  | exact (x : Exact)

namespace ExtentKey

/-- two keys are equal; keys that are no numbers count as one -/
def same : ExtentKey → ExtentKey → Bool
  | .whole a, .whole b => a == b
  | .real x, .real y => x == y || (x.isNaN && y.isNaN)
  | .complex a b, .complex x y => (a == x && b == y) || ((a.isNaN || b.isNaN) && (x.isNaN || y.isNaN))
  | .exact a, .exact b => a.same b
  | _, _ => false

/-- an exact multiple of a dimension plus a column -/
def ofExact (e : Exact) (row col : Int) : Outcome ExtentKey :=
  match e with
  | .quotient num den => .ok (.exact (.quotient (row * num + col * den) den))
  | .infinite n => if row = 0 then .error .invalidDecimal else .ok (.exact (.infinite n))

def ofCell (n : Number) (c : Option Cell) (row col : Int) : Outcome ExtentKey :=
  let r := wordToFloat row
  let k := wordToFloat col
  match n, c with
  | .int d, some (.int 64 false) => .ok (.real (r * wordToFloat d + k))
  | .int d, some _ => .ok (.whole (wrapWord (row * d + col)))
  | .int d, none => (word d).map fun d => .whole (wrapWord (row * d + col))
  | .bool b, _ => .ok (.whole (wrapWord ((if b then row else 0) + col)))
  | .float x, _ => .ok (.real (r * x + k))
  | .complex re im, _ => .ok (.complex (r * re - 0.0 * im + k) (r * im + 0.0 * re))
  | n, _ => match n.toExact with
    | some e => ofExact e row col
    | none => .error .invalidDecimal

def countDistinct : List ExtentKey → List ExtentKey → Nat
  | _, [] => 0
  | seen, k :: ks => (if seen.any (same k) then 0 else 1) + countDistinct (k :: seen) ks

end ExtentKey

def axisCount : Value → Nat
  | .array _ shape _ => shape.length
  | _ => 0

/-- whether two of some cells share a key; in a dimension of several axes the keys count as one row -/
def keysClash (v : Value) (cells : List (Int × Int)) : Outcome Bool := do
  let (n, c) ← v.extentNumber
  let keys ← cells.mapM fun p => ExtentKey.ofCell n c p.1 p.2
  return ExtentKey.countDistinct [] keys != (if 2 ≤ v.axisCount then 1 else keys.length)

/-! ## Counting -/

/-- how many rows a dimension counts -/
def count? : Value → Option Int
  | .number (.int n) _ => some n
  | .number (.bool b) none => some (if b then 1 else 0)
  | .array (.int _ _) [] [.int n] => some n
  | _ => none

/-- half of a double without the fraction; a zero keeps its sign -/
def floorHalf (x : Float) : Float :=
  if !isFiniteDouble x then 0.0 / 0.0 else if x == 0.0 then x else (x / 2.0).floor

/-- the packed length in the arithmetic of a sort, and the sort of the result -/
def packedSized (c : Cell) (n : Number) : Outcome (Number × Cell) :=
  match c, n with
  | .bool, .bool b => .ok (.int (if b then 1 else 0), .int 64 true)
  | .int bits s, .int d => .ok (.int (wrapTo bits s ((wrapTo bits s (d * wrapTo bits s (d + 1))).fdiv 2)), c)
  | .float w, .float x => .ok (.float (floorHalf (w.format.narrow (x * w.format.narrow (x + 1.0)))), c)
  | _, _ => .error .notNumeric

def packedPlain : Number → Outcome Number
  | .bool b => .ok (.int (MomentProgram.packedLength (if b then 1 else 0)))
  | .int d => .ok (.int (MomentProgram.packedLength d))
  | .float x => .ok (.float (floorHalf (x * (x + 1.0))))
  | .ratio num den => .ok (.int ((num * (num + den)).fdiv (2 * (den * den))))
  | .decimal x => do return .decimal (← (← x.mul (← x.succ)).halved)
  | .complex _ _ => .error .notNumeric

/-- the length of the packed triangle of a dimension; arrays give one for each number -/
def packedLength : Value → Outcome Value
  | .number n none => (packedPlain n).map fun n => .number n none
  | .number n (some c) => (packedSized c n).map fun p => .number p.1 (some p.2)
  | .array c [] [n] => (packedSized c n).map fun p => .number p.1 (some p.2)
  | .array c shape ns => do
    let rs ← ns.mapM (packedSized c)
    let sort := match c with
      | .bool => .int 64 true
      | c => c
    match c with
    | .complex _ => throw .notNumeric
    | _ => return .array sort shape (rs.map (·.1))
  | _ => .error .notNumeric

/-! ## Unpacking -/

/-- whether a dimension is a whole number of a sort without a sign -/
def isUnsigned : Value → Bool
  | .number _ (some (.int _ false)) => true
  | .array (.int _ false) _ _ => true
  | _ => false

/-- the square array of a dimension that counts rows; where its packed length wrapped, one number fills the array -/
def filled (d : Nat) (v : List Float) : Outcome ((d : Nat) × Grid d Float) :=
  if (v.length : Int) = MomentProgram.packedLength d then .ok ⟨d, Packed.toGrid d v⟩
  else match v with
    | [x] => .ok ⟨d, .ofFn fun _ _ => x⟩
    | _ => .error .incompatibleShapes

/-- the symmetric array of a packed triangle whose length fits a dimension of any kind -/
def unpackLoose (dim : Value) (v : List Float) : Outcome ((d : Nat) × Grid d Float) := do
  let expected ← dim.packedLength
  if ← (Value.ofInt v.length).equal expected then
    match dim, dim.count? with
    | .number (.bool _) _, _ => throw .notNumeric
    | dim, some n =>
      if dim.isUnsigned then throw .tooLarge
      else if n < 0 then throw .negativeExtent
      else filled n.toNat v
    | _, none => throw .notNumeric
  else throw (.packedCount (← dim.spelled) (← expected.spelled) v.length)

/-- the symmetric array of a packed triangle for a dimension as stated -/
def unpackStated (dim : Value) (v : List Float) : Outcome ((d : Nat) × Grid d Float) :=
  match dim with
  | .number (.int d) none => (unpack d v).mapError Fault.writable
  | dim => unpackLoose dim v

end Value

end MomentProgram
