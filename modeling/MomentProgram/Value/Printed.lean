/-
How a value is written in a message.

Among other values, texts and bytes stand between quotes, with what is not printable by its code; a foreign object has its own name
in angle brackets; lists, tuples and records are written item by item. In a sentence (`spelled`) a value stands without quotes and
without the name of its sort. A value that holds a whole number of too many digits is not written at all.
-/
import MomentProgram.Text.Printable
import MomentProgram.Value.ArrayText

namespace MomentProgram

/-- hexadecimal digits, padded to a width -/
def hexText (width n : Nat) : String :=
  let ds := Nat.toDigits 16 n
  String.ofList (List.replicate (width - ds.length) '0' ++ ds)

/-- a character between two quotes of the given sort -/
def quotedChar (quote c : Char) : String :=
  if c == quote || c == '\\' then "\\" ++ String.singleton c
  else if c == '\n' then "\\n"
  else if c == '\r' then "\\r"
  else if c == '\t' then "\\t"
  else if isPrintable c then String.singleton c
  else if c.toNat < 0x100 then "\\x" ++ hexText 2 c.toNat
  else if c.toNat < 0x10000 then "\\u" ++ hexText 4 c.toNat
  else "\\U" ++ hexText 8 c.toNat

def singleQuote : Char := Char.ofNat 0x27

def doubleQuote : Char := Char.ofNat 0x22

/-- a text between single quotes, or double ones if that saves escapes -/
def quoted (each : Char → Char → String) (cs : List Char) : String :=
  let quote := if cs.contains singleQuote && !cs.contains doubleQuote then doubleQuote else singleQuote
  String.singleton quote ++ String.join (cs.map (each quote)) ++ String.singleton quote

/-- a byte between quotes: beyond ASCII always by its code -/
def quotedByte (quote c : Char) : String := if c.toNat < 0x80 then quotedChar quote c else "\\x" ++ hexText 2 c.toNat

namespace Value

/-- items with commas between them, and one behind a single item of a tuple -/
def enclosedTuple : List String → String
  | [t] => "(" ++ t ++ ",)"
  | ts => "(" ++ ", ".intercalate ts ++ ")"

mutual

/-- a value as written among other values -/
def printed : Value → Outcome String
  | .null => .ok "None"
  | .number n none => n.printed
  | .number n (some c) => c.printed n
  | .text s => .ok (quoted quotedChar s.toList)
  | .bytes b => .ok ("b" ++ quoted quotedByte (bytesText b))
  | .foreign name _ => .ok ("<" ++ name ++ ">")
  | .list vs => (printedEach vs).map fun ts => "[" ++ ", ".intercalate ts ++ "]"
  | .tuple vs => (printedEach vs).map enclosedTuple
  | .array c shape ns => .ok (arrayText c shape ns)
  | .member label s => .ok ("<" ++ label ++ ": " ++ quoted quotedChar s.toList ++ ">")
  | .path s => .ok ("PosixPath(" ++ quoted quotedChar s.toList ++ ")")
  | .record name _ labels fields => (printedEach fields).map fun ts =>
    name ++ "(" ++ ", ".intercalate (List.zipWith (fun l t => l ++ "=" ++ t) labels ts) ++ ")"
  | .thing name => .ok ("<" ++ name ++ ">")

def printedEach : List Value → Outcome (List String)
  | [] => .ok []
  | v :: vs => do return (← v.printed) :: (← printedEach vs)

end

/-- a value as written in a sentence; of a sized number its value as an unsized one -/
def spelled : Value → Outcome String
  | .number n _ => n.spelled
  | .text s => .ok s
  | .member label _ => .ok label
  | .path s => .ok s
  | .array _ [] [n] => n.spelled
  | .array c shape ns => .ok (bracketed c shape ns " " 0 0)
  | v => v.printed

end Value

end MomentProgram
