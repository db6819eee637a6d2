/-!
# File trees

A file tree is plain data: a file with its content, a folder of named entries, or a link with the
text of its target. Places in a tree are lists of names from the root, with no link followed and
no `..` in them.
-/
namespace ToolchainChoice.Files

inductive Entry where
  | file (content : ByteArray)
  | folder (entries : List (String × Entry))
  | link (target : String)
  deriving Inhabited

/-- The names that lead from the root to a place. -/
abbrev Place := List String

/-- The entries with `name` set to `e`: in place if the name is taken, at the end otherwise. -/
def setEntry (name : String) (e : Entry) : List (String × Entry) → List (String × Entry)
  | [] => [(name, e)]
  | entry :: entries =>
    if entry.1 = name then (name, e) :: entries else entry :: setEntry name e entries

namespace Entry

def empty : Entry := .folder []

def entries : Entry → List (String × Entry)
  | .folder entries => entries
  | _ => []

def isFolder : Entry → Bool
  | .folder _ => true
  | _ => false

def child? (e : Entry) (name : String) : Option Entry := e.entries.lookup name

/-- The entry at a place. -/
def at? (e : Entry) : Place → Option Entry
  | [] => some e
  | name :: place => (e.child? name).bind fun c => c.at? place

/-- The tree with `new` at a place; folders on the way to it are made if they are missing. -/
def put (e : Entry) (place : Place) (new : Entry) : Entry :=
  match place with
  | [] => new
  | name :: place =>
    .folder (setEntry name (((e.child? name).getD empty).put place new) e.entries)

mutual

/-- The number of links in a tree. -/
def linkCount : Entry → Nat
  | .file _ => 0
  | .link _ => 1
  | .folder entries => linkCountAll entries

def linkCountAll : List (String × Entry) → Nat
  | [] => 0
  | (_, e) :: entries => linkCount e + linkCountAll entries

end

mutual

/-- The places of all files below `place`, with their contents. No link is followed. -/
def files (place : Place) : Entry → List (Place × ByteArray)
  | .file content => [(place, content)]
  | .link _ => []
  | .folder entries => filesAll place entries

def filesAll (place : Place) : List (String × Entry) → List (Place × ByteArray)
  | [] => []
  | (name, e) :: entries => files (place ++ [name]) e ++ filesAll place entries

end

end Entry

end ToolchainChoice.Files
