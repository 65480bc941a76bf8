/-
Values as keys of a table.

Numbers of all kinds are the same key if they are equal as exact numbers, so one, one point zero and true are one key; text is the
same as the same text, tuples and records as those with the same items. NaN and objects without equality are the same as nothing
but themselves: a `Key` therefore says which object it is, where that is known. Lists and arrays, most records and the decimals
that refuse comparison cannot be keys at all.
-/
import MomentProgram.Value.Equality

namespace MomentProgram

namespace Value

mutual

/-- whether a value can be a key of a table -/
def isKey : Value → Bool
  | .list _ => false
  | .array _ _ _ => false
  | .number n _ => !n.signals
  | .tuple vs => areKeys vs
  | .record _ keyed _ fields => keyed && areKeys fields
  | _ => true

def areKeys : List Value → Bool
  | [] => true
  | v :: vs => isKey v && areKeys vs

end

mutual

def same : Value → Value → Bool
  | .null, .null => true
  | .number m _, .number n _ => m.same n
  | .bytes a, .bytes b => a == b
  | .path a, .path b => a == b
  | .tuple vs, .tuple ws => allSame vs ws
  | .record m _ _ vs, .record n _ _ ws => m == n && allSame vs ws
  | a, b => match a.text?, b.text? with
    | some s, some t => s == t
    | _, _ => false

def allSame : List Value → List Value → Bool
  | [], [] => true
  | v :: vs, w :: ws => same v w && allSame vs ws
  | _, _ => false

end

end Value

/-- a value used as a key, and which object it is, where that is known -/
structure Key where
  value : Value
  identity : Option Nat
  deriving Repr

namespace Key

def same (a b : Key) : Bool := (a.identity.isSome && a.identity == b.identity) || a.value.same b.value

end Key

end MomentProgram
