import ToolchainChoice.Files.Path
import ToolchainChoice.Files.Tree

/-!
# Finding and changing files

A disk is a file tree with a current folder. A path is followed name by name from the current
folder or the root; a link on the way is replaced by its target, and so is one at the end unless
the link itself is meant. At most `linkLimit` links are followed for one path. Nothing here looks
at more than the tree, so the same path leads to the same place until the tree changes.
-/
namespace ToolchainChoice.Files

/-- Why the system refuses an operation. -/
inductive Fault where
  | missing
  | notFolder
  | isFolder
  | taken
  | tooManyLinks
  | nameTooLong
  /-- The name is no text in UTF-8. -/
  | notText
  deriving DecidableEq, Repr

def Fault.message : Fault → String
  | .missing => "no such file or folder"
  | .notFolder => "not a folder"
  | .isFolder => "is a folder"
  | .taken => "the name is taken"
  | .tooManyLinks => "too many links"
  | .nameTooLong => "the name is too long"
  | .notText => "the name is not UTF-8"

/-- How many links are followed for one path. -/
def linkLimit : Nat := 40

/-- The greatest length of a name, in octets. -/
def nameLimit : Nat := 255

/-- The greatest length of a path, in octets. -/
def pathLimit : Nat := 4095

structure Disk where
  root : Entry
  /-- The place of the current folder. -/
  here : Place

/-- Where a path leads: to an entry, or to a name that is not taken in a folder that exists. -/
inductive Spot where
  | entry (place : Place) (e : Entry)
  | free (folder : Place) (name : String)

/-- Follows names from the place `here`. -/
def follow (root : Entry) (lastToo : Bool) (links : Nat) (here : Place) (names : List String) :
    Except Fault Spot :=
  match names with
  | [] =>
    match root.at? here with
    | some e => .ok (.entry here e)
    | none => .error .missing
  | name :: names =>
    match root.at? here with
    | some (.folder entries) =>
      if !isName name then follow root lastToo links here names
      else if name = ".." then follow root lastToo links here.dropLast names
      else if nameLimit < name.utf8ByteSize then .error .nameTooLong
      else
        match entries.lookup name with
        | none => if names.isEmpty then .ok (.free here name) else .error .missing
        | some (.link target) =>
          if names.isEmpty && !lastToo then .ok (.entry (here ++ [name]) (.link target))
          else
            match links with
            | 0 => .error .tooManyLinks
            | links + 1 =>
              let start := if Path.startOf target.toList = .current then here else []
              follow root lastToo links start (rawNames target ++ names)
        | some _ => follow root lastToo links (here ++ [name]) names
    | some _ => .error .notFolder
    | none => .error .missing
termination_by (links, names.length)

namespace Disk

variable (d : Disk)

/-- Where a path starts. -/
def startPlace (p : Path) : Place := if p.start = .current then d.here else []

/-- Follows a path; `lastToo` says whether a link at its end is followed as well. -/
def find (p : Path) (lastToo : Bool := true) : Except Fault Spot :=
  if pathLimit < p.text.utf8ByteSize then .error .nameTooLong
  else follow d.root lastToo linkLimit (d.startPlace p) p.names

/-- What is at a path. -/
def entryAt (p : Path) : Except Fault Entry :=
  match d.find p with
  | .ok (.entry _ e) => .ok e
  | .ok (.free ..) => .error .missing
  | .error fault => .error fault

/-- What is at a path, if anything; the only fault is a name that is too long to be looked up. -/
def entryAt? (p : Path) : Except Fault (Option Entry) :=
  if p.hasNul then .ok none
  else
    match d.entryAt p with
    | .ok e => .ok (some e)
    | .error .nameTooLong => .error .nameTooLong
    | .error _ => .ok none

/-- Whether a path leads to a folder, where a fault counts as no. -/
def isFolder (p : Path) : Bool :=
  match d.entryAt p with
  | .ok e => e.isFolder
  | .error _ => false

/-- The content of the file at a path. -/
def read (p : Path) : Except Fault ByteArray :=
  match d.entryAt p with
  | .ok (.file content) => .ok content
  | .ok _ => .error .isFolder
  | .error fault => .error fault

/-- The disk with a file at a path, written over the one that is there. -/
def write (p : Path) (content : ByteArray) : Except Fault Disk :=
  match d.find p with
  | .ok (.entry place (.file _)) => .ok { d with root := d.root.put place (.file content) }
  | .ok (.entry ..) => .error .isFolder
  | .ok (.free folder name) =>
    .ok { d with root := d.root.put (folder ++ [name]) (.file content) }
  | .error fault => .error fault

/-- The disk with a new folder at a path. -/
def makeFolder (p : Path) : Except Fault Disk :=
  match d.find p false with
  | .ok (.entry ..) => .error .taken
  | .ok (.free folder name) => .ok { d with root := d.root.put (folder ++ [name]) .empty }
  | .error fault => .error fault

end Disk

/-- Makes the folder with these names, and before it all that are missing on the way to it. That
the folder is there already is no fault. The disk is what has become of it in either case. -/
def makeFolders (start : Start) (names : List String) (d : Disk) : Disk × Except Fault Unit :=
  let p : Path := ⟨start, names⟩
  let settle (d : Disk) : Disk × Except Fault Unit :=
    match d.makeFolder p with
    | .ok d => (d, .ok ())
    | .error fault => (d, if d.isFolder p then .ok () else .error fault)
  match d.makeFolder p with
  | .error .missing =>
    match names with
    | [] => (d, .error .missing)
    | name :: names =>
      match makeFolders start (name :: names).dropLast d with
      | (d, .error fault) => (d, .error fault)
      | (d, .ok ()) => settle d
  | _ => settle d
termination_by names.length
decreasing_by simp

end ToolchainChoice.Files
