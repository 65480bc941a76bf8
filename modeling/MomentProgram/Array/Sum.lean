/-
The order in which long sums are added.

Rounded addition is not associative, so the order is part of the result. Fewer than eight numbers are added from left to
right; up to 128 go into eight running sums, each taking every eighth number, which are then added as a balanced tree before
the rest follows; longer lists are halved at a multiple of eight. `blockSum` is that order; the exact sum does not depend on it.
-/
import MomentProgram.Scalar

namespace MomentProgram

variable {α : Type}

structure Lanes (α : Type) where
  (a b c d e f g h : α)

/-- the eight sums as a balanced tree -/
def Lanes.total [Add α] (s : Lanes α) : α := ((s.a + s.b) + (s.c + s.d)) + ((s.e + s.f) + (s.g + s.h))

/-- full blocks of eight go into the running sums, the rest onto their total -/
def addBlocks [Add α] (s : Lanes α) : List α → α
  | a :: b :: c :: d :: e :: f :: g :: h :: rest =>
    addBlocks ⟨s.a + a, s.b + b, s.c + c, s.d + d, s.e + e, s.f + f, s.g + g, s.h + h⟩ rest
  | rest => rest.foldl (· + ·) s.total

def shortSum [Add α] [Scalar α] : List α → α
  | a :: b :: c :: d :: e :: f :: g :: h :: rest => addBlocks ⟨a, b, c, d, e, f, g, h⟩ rest
  | few => few.foldl (· + ·) Scalar.zero

/-- lists of at most this length are not halved -/
def blockLimit : Nat := 128

/-- halving, at most `fuel` times in a row -/
def halvedSum [Add α] [Scalar α] : Nat → List α → α
  | 0, l => shortSum l
  | fuel + 1, l =>
    if l.length ≤ blockLimit then shortSum l
    else
      let cut := l.length / 2 / 8 * 8
      halvedSum fuel (l.take cut) + halvedSum fuel (l.drop cut)

/-- the sum of a list in blocked order; it is never a negative zero -/
def blockSum [Add α] [Scalar α] (l : List α) : α := Scalar.fromZero (halvedSum l.length l)

end MomentProgram
