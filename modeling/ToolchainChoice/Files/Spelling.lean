import ToolchainChoice.Failure
import ToolchainChoice.Files.Disk

/-!
# Paths as they are spelled

A path that a text names is used in two ways. It is shown with the doubled slashes and the points
taken out, whatever symbols are in it; and the system is asked for it, which takes octets. A text
with half a character that has no octet, or with a character NUL, names nothing that the system
could be asked for, and the failure is none of the system's. The names of files are taken to be texts
in UTF-8, as some systems want them: a path of other octets is refused, and that is a fault of the
system's like others.
-/
namespace ToolchainChoice.Files

open Text (Symbol)

/-- A path by its names as they are written. -/
structure Spelling where
  start : Start
  names : List Symbols
  deriving DecidableEq, Repr

namespace Spelling

/-- The parts of a text between slashes, empty ones included. -/
def parts (text : Symbols) : List Symbols :=
  text.foldr
    (fun s parts => if s = .char '/' then [] :: parts else
      match parts with
      | [] => [[s]]
      | part :: parts => (s :: part) :: parts)
    [[]]

def ofText (text : Symbols) : Spelling where
  start := Path.startOf (Symbol.separate text)
  names := (parts text).filter fun name => name != "" && name != "."

/-- The text of a path; the current folder itself is a point. -/
def text (p : Spelling) : Symbols :=
  if p.start = .current ∧ p.names = [] then "."
  else Path.startText p.start ++ List.intercalate "/" p.names

def child (p : Spelling) (name : String) : Spelling := ⟨p.start, p.names ++ [(name : Symbols)]⟩

end Spelling

/-- The path that the system is asked for under a text. The outer failure is met before the system
is asked. -/
def locate (text : Symbols) : Except Failure (Except Fault Path) :=
  match text.octets? with
  | none => .error .unencodable
  | some octets =>
    if text.contains (.char '\x00') then .error .nulInPath
    else
      match String.fromUTF8? octets.toByteArray with
      | some text => .ok (.ok (.ofText text))
      | none => .ok (.error .notText)

end ToolchainChoice.Files
