/-
Products of an array of doubles with a value.

A number multiplies every entry, an array or list the entries that it fits; a complex product keeps its real part. Exact quotients
multiply as doubles, and like objects that do not multiply doubles they are looked at only where there is an entry to multiply.
Text multiplies nothing.
-/
import MomentProgram.Value.Content

namespace MomentProgram

/-- the real part of a complex number times a real one -/
def complexTimes (re im x : Float) : Float := re * x - im * 0.0

namespace Number

/-- a number of a typed array times a double -/
def times (n : Number) (x : Float) : Float :=
  match n with
  | .complex re im => complexTimes re im x
  | n => Cell.toWidth .double n * x

end Number

namespace Value

/-- a cell among objects times a double -/
def objectTimes (v : Value) (x : Float) : Outcome Float :=
  match v with
  | .number (.complex _ _) none => .error .notNumeric
  | .number (.decimal _) _ => .error .notNumeric
  | .number n _ => n.toFloat.map (· * x)
  | _ => .error .notNumeric

/-- a cell of an array of common content times a double -/
def cellTimes (content : Content) (v : Value) (x : Float) : Outcome Float :=
  match content, v with
  | .cells _, .number n _ => .ok (n.times x)
  | _, v => v.objectTimes x

/-- an array of common content times an array of doubles, over the shape that both fit -/
def gatheredTimes (g : Gathered) (xs : Tensor Float) : Outcome (List Float) :=
  match g.content with
  | .text => .error .noProduct
  | .bytes => .error .noProduct
  | content => match Tensor.zipFitted? Prod.mk g.cells xs .null 0.0 with
    | none => .error .incompatibleShapes
    | some pairs => (pairs.mapE fun p => cellTimes content p.1 p.2).map Tensor.toList

/-- a value times an array of doubles; no value is one -/
def timesEach (scale : Option Value) (xs : Tensor Float) : Outcome (List Float) :=
  match scale with
  | none => .ok (xs.toList.map (1.0 * ·))
  | some (.number (.float s) _) => .ok (xs.toList.map (s * ·))
  | some (.number (.int n) none) => (Number.intToFloat n).map fun s => xs.toList.map (s * ·)
  | some (.number (.complex re im) _) => .ok (xs.toList.map (complexTimes re im))
  | some v => v.gather.bind fun g => gatheredTimes g xs

end Value

end MomentProgram
