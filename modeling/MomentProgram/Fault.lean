/-
Why a request is refused, as causes of the domain.

Each constructor is one cause, with the data its wording needs. `Fault.kind` sorts causes into the few families that callers
tell apart, and `Fault.message` gives the wording of the causes this library words itself; a cause of plain reading or
arithmetic (text that is no numeral, a number beyond the range of a double) has a family and no wording. `Fault.raised` is a
refusal worded by somebody else: the solver, or an object of the coefficient field.

A refusal may end an iteration. A generator does not let such a one out: `Fault.outOfGenerator` is what comes out in its place.
-/
namespace MomentProgram

inductive Kind where
  | value
  | type
  | overflow
  | index
  | attribute
  | unavailable
  /-- a quotient by zero -/
  | division
  /-- an operation without a result among decimals -/
  | decimalOperation
  /-- a decimal result beyond the largest exponent -/
  | decimalRange
  /-- operands between which an operation does not exist -/
  | operands
  /-- the end of an iteration, by the name of whoever ended it -/
  | stopping (name : String)
  /-- a family named by whoever refused -/
  | named (name : String)
  deriving DecidableEq, Repr

inductive Fault where
  /-- the value has no reading as a number of the wanted sort -/
  | notNumeric
  /-- the text is no numeral, or the number no integer at all -/
  | unreadable
  /-- the number is beyond the range of the wanted sort -/
  | tooLarge
  /-- nested lists of different lengths or depths -/
  | ragged
  /-- the value is no sequence -/
  | notIterable
  /-- a position outside the sequence or array -/
  | missingEntry
  /-- array shapes that do not fit each other, or do not fit the operation -/
  | incompatibleShapes
  /-- a matrix of negative extent -/
  | negativeExtent
  /-- a value that cannot be a key of a table -/
  | notAKey
  /-- a path that is no text -/
  | notAPath
  /-- a tolerance that cannot be compared with zero -/
  | unordered
  /-- several numbers where one is wanted -/
  | notSingle
  /-- a status outside the list of statuses -/
  | unknownStatus
  /-- a part that the result does not have -/
  | noSuchPart
  /-- a whole number with too many digits to be written -/
  | tooLong
  | zeroDenominator
  | invalidDecimal
  | decimalOverflow
  /-- a product of text and numbers -/
  | noProduct
  | unpackable (shape : List Nat)
  /-- dimension and count of entries as written -/
  | packedCount (dim expected : String) (got : Nat)
  | negativeDim
  | tripleLengths
  | aboveDiagonal
  | outsideMatrix (dim : String)
  | duplicateCell
  | tagsNotSquare (shape : List Nat)
  | tagsNotIntegers
  | tagsBelowZeroCell
  | tagsNotSymmetric
  | tagsNotContiguous
  | phasesShape (expected got : List Nat)
  | phasesNotSymmetric
  | momentCount (expected got : Nat)
  | noGramSurface
  | objectiveLength (got expected : Nat)
  | identityMissing
  | objectiveEntries (got : Nat) (expected : String)
  | dimNotPositive
  | boundCount (bounds matrices : Nat)
  | notAMatrix
  /-- the fixed matrix (`none`) or a constraint matrix of the wrong dimension -/
  | matrixDim (constraint : Option Nat) (got expected : String)
  | dataNotFinite
  | dualObjectiveLength
  | momentMatrixLength
  | arraysRequired
  | multiplierCount (expected got : Nat)
  | badTolerance
  | packageMissing
  /-- the end of an iteration inside a generator -/
  | stopped
  /-- a coefficient without a reading as a complex number, as printed -/
  | coefficientNotNumeric (printed : String)
  /-- a coefficient with an imaginary part, as printed -/
  | coefficientNotReal (printed : String)
  | raised (kind : Kind) (message : String)
  deriving DecidableEq, Repr

/-- a shape as written in messages: `()`, `(3,)`, `(2, 3)` -/
def shapeText : List Nat → String
  | [] => "()"
  | [n] => s!"({n},)"
  | n :: ns => "(" ++ ns.foldl (fun acc k => acc ++ s!", {k}") (toString n) ++ ")"

namespace Fault

def kind : Fault → Kind
  | notNumeric | notIterable | notAKey | notAPath | unordered | noGramSurface | notAMatrix => .type
  | coefficientNotNumeric _ => .type
  | tooLarge => .overflow
  | missingEntry => .index
  | noSuchPart => .attribute
  | packageMissing | stopped => .unavailable
  | zeroDenominator => .division
  | invalidDecimal => .decimalOperation
  | decimalOverflow => .decimalRange
  | noProduct => .operands
  | raised k _ => k
  | _ => .value

/-- the wording of a cause, for the causes that have one -/
def message : Fault → Option String
  | unpackable s => some s!"mat must be a square matrix, got shape {shapeText s}"
  | packedCount d p n => some s!"Packed lower triangle of a {d}x{d} matrix has {p} entries, got {n}."
  | negativeDim => some "dim must be nonnegative."
  | tripleLengths => some "rows, cols and data must have the same length."
  | aboveDiagonal => some "Only lower-triangular entries (row >= col) are allowed."
  | outsideMatrix d => some s!"Entry out of range for a {d}x{d} matrix."
  | duplicateCell => some "Duplicate (row, col) entries."
  | tagsNotSquare s => some s!"moment_indices must be a square matrix, got shape {shapeText s}"
  | tagsNotIntegers => some "moment_indices must contain integers."
  | tagsBelowZeroCell => some "moment_indices entries must be >= -1."
  | tagsNotSymmetric => some "moment_indices must be symmetric."
  | tagsNotContiguous => some "Monomial indices must be contiguous, 0 .. n_unique_monomials - 1."
  | phasesShape e g => some s!"phases shape mismatch: expected {shapeText e}, got {shapeText g}."
  | phasesNotSymmetric => some "phases must be symmetric."
  | momentCount e g => some s!"Expected {e} moments, got {g}."
  | noGramSurface => some "gram_matrix must provide the GramMatrixLike interface."
  | objectiveLength g e =>
    some s!"Length of objective_vector must equal the number of unique monomials ({g} != {e})."
  | identityMissing => some "empty/one monomial not part of the relaxation"
  | objectiveEntries g e => some s!"objective_vector has {g} entries, expected {e}."
  | dimNotPositive => some "dim must be positive."
  | boundCount b m => some s!"Number of bounds ({b}) must equal the number of constraint matrices ({m})."
  | notAMatrix => some "Program matrices must be LowerTriangularMatrix instances."
  | matrixDim none g e => some s!"fixed_matrix has dimension {g}, expected {e}."
  | matrixDim (some i) g e => some s!"constraint_matrices[{i}] has dimension {g}, expected {e}."
  | dataNotFinite => some "Bounds and constant offset must be finite."
  | dualObjectiveLength => some "Dimension mismatch for y in the dual objective."
  | momentMatrixLength => some "Dimension mismatch for y in the moment matrix."
  | arraysRequired => some "An optimal status requires the primal and dual arrays."
  | multiplierCount e g => some s!"Expected {e} dual multipliers, got {g}."
  | badTolerance => some "tol_rel_gap must be positive and finite."
  | packageMissing => some "mosek is required to solve or export a relaxation."
  | coefficientNotNumeric p => some s!"Cannot evaluate coefficient {p} to a real number."
  | coefficientNotReal p => some s!"Coefficient {p} is not real."
  | raised _ m => some m
  | _ => none

/-- what comes out of a generator for a refusal inside it: the end of an iteration is turned into another refusal, any other one passes -/
def outOfGenerator (f : Fault) : Fault :=
  match f.kind with
  | .stopping _ => stopped
  | _ => f

/-- whether a text holds more digits than a whole number may have that is written -/
def overlong (s : String) : Bool := 4300 < (s.toList.filter Char.isDigit).length

/-- the same cause, or that a number in its wording has too many digits to be written -/
def writable (f : Fault) : Fault :=
  let labels := match f with
    | packedCount d p _ => [d, p]
    | outsideMatrix d => [d]
    | matrixDim _ g e => [g, e]
    | objectiveEntries _ e => [e]
    | _ => []
  if labels.any overlong then tooLong else f

end Fault

/-- the result of a computation, or why there is none -/
abbrev Outcome := Except Fault

end MomentProgram
