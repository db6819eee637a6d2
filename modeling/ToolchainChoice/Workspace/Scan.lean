import ToolchainChoice.Files.Disk
import ToolchainChoice.Files.Text
import ToolchainChoice.Range
import ToolchainChoice.Trace
import ToolchainChoice.Workspace.Directive

/-!
# Scanning a workspace

The manifests of a workspace are the files with a manifest name in its root folder and in every
folder below that is not hidden and not skipped by name. They are listed folder by folder, a
folder before those below it and these in the order of their names, so the list does not depend
on the order in which a folder holds its entries. A link to a folder counts as a folder here, but
is not entered.

The walk asks the system for every folder by its path, and is taken to be allowed to read all of
them. The system knows no path that is longer than `Files.pathLimit`, for a folder as for a file
(`Disk.find`); the walk passes over this fault, so a folder with such a path counts as empty.
Folders that are nested more deeply than `walkDepth` end the walk with a failure.

The requirement of a workspace is the greatest version that one of its manifests declares; of
several such manifests the first one counts. A manifest that cannot be read, or declares what is
no version, is reported and otherwise ignored.
-/
namespace ToolchainChoice.Workspace

open Files (Path Place Entry Disk)

/-- The names of manifests; in one folder the first comes first. -/
def manifestNames : List String := ["go.work", "go.mod"]

/-- Names of folders that hold no modules of the workspace. -/
def skippedFolders : List String := ["vendor", "testdata", "node_modules"]

/-- Whether a folder of this name is entered. -/
def isEntered (name : String) : Bool :=
  !skippedFolders.contains name && name.toList.head? != some '.'

/-- How deeply folders can be nested below the root of a walk. -/
def walkDepth : Nat := 980

/-- The path by which a walk knows its root. In the current folder this is a name of its own, which
stands before the names below it. -/
def walkStart (root : Path) : Path :=
  if root = ⟨.current, []⟩ then ⟨.current, ["."]⟩ else root

/-- Whether the system lists the folder with this path to a walk. -/
def isListed (shown : Path) : Bool := shown.text.utf8ByteSize ≤ Files.pathLimit

/-- Whether the folder `shown` holds a manifest of this name among its entries. -/
def holdsManifest (d : Disk) (shown : Path) (entries : List (String × Entry)) (name : String) :
    Bool :=
  match entries.lookup name with
  | some (.file _) => true
  | some (.link _) => !d.isFolder (shown.child name)
  | _ => false

/-- The places of the manifests in a folder itself. -/
def ownManifests (d : Disk) (shown : Path) (entries : List (String × Entry)) : List Place :=
  (manifestNames.filter (holdsManifest d shown entries)).map fun name => [name]

mutual

/-- The places of the manifests in and below an entry, as seen from it. The walk knows the entry by
the path `shown`. -/
def manifestsIn (d : Disk) (shown : Path) : Entry → List Place
  | .folder entries =>
    if isListed shown then
      ownManifests d shown entries ++
        ((manifestsBelow d shown entries).mergeSort fun a b => a.1 ≤ b.1).flatMap fun found =>
          found.2.map (found.1 :: ·)
    else []
  | _ => []

/-- For each entry of a folder that is entered, its name and the manifests in and below it. -/
def manifestsBelow (d : Disk) (shown : Path) : List (String × Entry) → List (String × List Place)
  | [] => []
  | (name, e) :: entries =>
    let rest := manifestsBelow d shown entries
    if e.isFolder && isEntered name then (name, manifestsIn d (shown.child name) e) :: rest
    else rest

end

mutual

/-- Whether the walk comes to folders that are nested more than `levels` deep in an entry. -/
def goesDeeper (shown : Path) (levels : Nat) : Entry → Bool
  | .folder entries => isListed shown && anyGoesDeeper shown levels entries
  | _ => false

/-- Whether the walk does so by one of these entries of a folder. -/
def anyGoesDeeper (shown : Path) (levels : Nat) : List (String × Entry) → Bool
  | [] => false
  | (name, e) :: entries =>
    (e.isFolder && isEntered name &&
        (levels == 0 || goesDeeper (shown.child name) (levels - 1) e)) ||
      anyGoesDeeper shown levels entries

end

/-- The manifests of the workspace at `root`. -/
def manifests (d : Disk) (root : Path) : Traced (List Path) :=
  match d.entryAt? root with
  | .error _ => .fail .nameTooLong
  | .ok (some (.folder entries)) =>
    if goesDeeper (walkStart root) walkDepth (.folder entries) then .fail .tooDeep
    else do
      let found := (manifestsIn d (walkStart root) (.folder entries)).map root.below
      .debug .workspace
        ("Found " ++ toString found.length ++ " manifest(s) in " ++ root.text)
      return found
  | .ok _ => .fail (.rootNotDirectory root.text)

def unreadable (manifest : Path) (reason : String) : Traced (Option String) := do
  .log .warning .workspace ("Failed to read " ++ manifest.text ++ ": " ++ reason)
  return none

/-- The version that one manifest declares, if it declares one that can be used. -/
def declaredIn (d : Disk) (manifest : Path) : Traced (Option String) :=
  match d.read manifest with
  | .error fault => unreadable manifest fault.message
  | .ok content =>
    match Files.decodeText? content with
    | none => unreadable manifest "the text is not UTF-8"
    | some text =>
      match directive? text with
      | none => do
        .debug .workspace ("No go directive in " ++ manifest.text)
        return none
      | some version => do
        if ← Version.isValid version then return some version
        else
          .log .warning .workspace
            ("Ignoring invalid go directive '" ++ version ++ "' in " ++ manifest.text)
          return none

/-- A version that a workspace needs, and the manifest that says so. -/
structure Requirement where
  version : String
  source : Path
  deriving DecidableEq, Repr

/-- The requirement after another manifest has been read; only a greater version replaces one. -/
def Requirement.improve (best : Option Requirement) (manifest : Path) (version : String) :
    Except Failure (Option Requirement) :=
  match best with
  | none => .ok (some ⟨version, manifest⟩)
  | some r => do
    let order ← Version.compareTexts version r.version
    return some (if order = .gt then ⟨version, manifest⟩ else r)

/-- The requirement of some manifests, given what those before them require. -/
def strongest (d : Disk) : Option Requirement → List Path → Traced (Option Requirement)
  | best, [] => return best
  | best, manifest :: rest => do
    match ← declaredIn d manifest with
    | none => strongest d best rest
    | some version => strongest d (← Requirement.improve best manifest version) rest

/-- The requirement of the workspace at `root`. -/
def requirement (d : Disk) (root : Path) : Traced (Option Requirement) := do
  let best ← strongest d none (← manifests d root)
  match best with
  | some r =>
    .debug .workspace
      ("Workspace requires version " ++ r.version ++ " (" ++ r.source.text ++ ")")
  | none => .debug .workspace "No go directive found in workspace"
  return best

end ToolchainChoice.Workspace
