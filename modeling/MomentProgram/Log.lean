/-
Log records.

A computation may leave records: a level, the part of the library it comes from, and a text.
-/
import MomentProgram.Number.Notation

namespace MomentProgram

inductive Level where
  | debug
  | info
  deriving DecidableEq, Repr

inductive Origin where
  | encoding
  | session
  deriving DecidableEq, Repr

structure Record where
  level : Level
  origin : Origin
  text : String
  deriving DecidableEq, Repr

end MomentProgram
