/-
Blank characters and decimal digits.

`isBlank` is the Unicode property White_Space, twenty-five characters. A decimal digit is a character of the general category
Nd (Unicode 14.0): the table holds the zeros, and the nine characters after a zero are the digits one to nine of its script.
A `Script` says which characters a reader of numbers takes as blanks and digits: all of them in text, ASCII alone in bytes. Exact
numbers may also stand between the four ASCII information separators.
-/
namespace MomentProgram

/-- closed ranges of code points, ascending and apart -/
def blankRanges : List (Nat × Nat) :=
  [(0x09, 0x0D), (0x20, 0x20), (0x85, 0x85), (0xA0, 0xA0), (0x1680, 0x1680), (0x2000, 0x200A), (0x2028, 0x2029),
   (0x202F, 0x202F), (0x205F, 0x205F), (0x3000, 0x3000)]

def isBlank (c : Char) : Bool := blankRanges.any fun r => r.1 ≤ c.toNat && c.toNat ≤ r.2

/-- the code points of the digits zero -/
def digitZeros : List Nat :=
  [0x30, 0x660, 0x6F0, 0x7C0, 0x966, 0x9E6, 0xA66, 0xAE6, 0xB66, 0xBE6, 0xC66, 0xCE6, 0xD66, 0xDE6, 0xE50, 0xED0, 0xF20,
   0x1040, 0x1090, 0x17E0, 0x1810, 0x1946, 0x19D0, 0x1A80, 0x1A90, 0x1B50, 0x1BB0, 0x1C40, 0x1C50, 0xA620, 0xA8D0, 0xA900,
   0xA9D0, 0xA9F0, 0xAA50, 0xABF0, 0xFF10, 0x104A0, 0x10D30, 0x11066, 0x110F0, 0x11136, 0x111D0, 0x112F0, 0x11450,
   0x114D0, 0x11650, 0x116C0, 0x11730, 0x118E0, 0x11950, 0x11C50, 0x11D50, 0x11DA0, 0x16A60, 0x16AC0, 0x16B50,
   0x1D7CE, 0x1D7D8, 0x1D7E2, 0x1D7EC, 0x1D7F6, 0x1E140, 0x1E2F0, 0x1E950, 0x1FBF0]

/-- the value of a decimal digit of any script -/
def digitValue? (c : Char) : Option Nat :=
  (digitZeros.find? fun z => z ≤ c.toNat && c.toNat < z + 10).map fun z => c.toNat - z

/-- which characters count as blanks and digits -/
structure Script where
  blank : Char → Bool
  digit? : Char → Option Nat

namespace Script

def any : Script := ⟨isBlank, digitValue?⟩

/-- all scripts, with the information separators among the blanks -/
def exact : Script := ⟨fun c => isBlank c || (0x1C ≤ c.toNat && c.toNat ≤ 0x1F), digitValue?⟩

def ascii : Script where
  blank c := isBlank c && c.toNat < 128
  digit? c := if c.toNat < 128 then digitValue? c else none

def trim (s : Script) (cs : List Char) : List Char :=
  ((cs.dropWhile s.blank).reverse.dropWhile s.blank).reverse

end Script

end MomentProgram
