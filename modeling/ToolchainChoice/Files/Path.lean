/-!
# Paths

A path is a start, which is the current folder or the root, and a list of names. Reading a path
drops the names `.` and the empty names between doubled slashes; `..` is kept, because what it
means depends on links. A path that begins with exactly two slashes is kept apart from one that
begins with one, though both start at the root.
-/
namespace ToolchainChoice.Files

inductive Start where
  | current
  | root
  | doubleRoot
  deriving DecidableEq, Repr, Inhabited

structure Path where
  start : Start
  names : List String
  deriving DecidableEq, Repr, Inhabited

/-- The parts of a text between slashes, empty ones included. -/
def splitSlash (cs : List Char) : List (List Char) :=
  cs.foldr
    (fun c parts => if c = '/' then [] :: parts else
      match parts with
      | [] => [[c]]
      | part :: parts => (c :: part) :: parts)
    [[]]

/-- The names in the text of a path or a link, as they are written. -/
def rawNames (text : String) : List String := (splitSlash text.toList).map String.ofList

/-- Whether a name in a path says anything. -/
def isName (name : String) : Bool := name != "" && name != "."

namespace Path

def startOf : List Char → Start
  | '/' :: '/' :: '/' :: _ => .root
  | '/' :: '/' :: _ => .doubleRoot
  | '/' :: _ => .root
  | _ => .current

def ofText (text : String) : Path := ⟨startOf text.toList, (rawNames text).filter isName⟩

def startText : Start → String
  | .current => ""
  | .root => "/"
  | .doubleRoot => "//"

/-- The text of a path; the current folder itself is a point. -/
def text (p : Path) : String :=
  if p.start = .current ∧ p.names = [] then "."
  else startText p.start ++ "/".intercalate p.names

/-- The path `q` as seen from `p`. -/
def join (p q : Path) : Path :=
  if q.start = .current then ⟨p.start, p.names ++ q.names⟩ else q

def child (p : Path) (name : String) : Path := ⟨p.start, p.names ++ [name]⟩

/-- The path of a place below the folder `p`. -/
def below (p : Path) (place : List String) : Path := ⟨p.start, p.names ++ place⟩

/-- The path without its last name. -/
def parent (p : Path) : Path := ⟨p.start, p.names.dropLast⟩

/-- The path of a place that is given by the names that lead to it from the root. -/
def ofRoot (names : List String) : Path := ⟨.root, names⟩

/-- A character that no name can hold. -/
def hasNul (p : Path) : Bool := p.names.any fun name => name.toList.contains '\x00'

end Path

end ToolchainChoice.Files
