/-
File paths in their written form.

Repeated slashes, components that are a single point and a slash at the end say nothing and are dropped; two points are kept.
Exactly two slashes in front are a root of their own, any other number of them is one. The empty path is a point.
-/
namespace MomentProgram

/-- the text between slashes -/
def pathComponents : List Char → List (List Char)
  | [] => [[]]
  | c :: cs => match c, pathComponents cs with
    | '/', parts => [] :: parts
    | c, part :: parts => (c :: part) :: parts
    | c, [] => [[c]]

def pathRoot : List Char → List Char
  | '/' :: '/' :: '/' :: _ => ['/']
  | '/' :: '/' :: _ => ['/', '/']
  | '/' :: _ => ['/']
  | _ => []

def pathText (path : String) : String :=
  let parts := (pathComponents path.toList).filter fun p => p != [] && p != ['.']
  let text := pathRoot path.toList ++ ['/'].intercalate parts
  if text.isEmpty then "." else String.ofList text

end MomentProgram
