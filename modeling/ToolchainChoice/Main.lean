import Std.Time.DateTime
import ToolchainChoice.CommandLine.Run

/-!
# The program

The outermost layer. It captures the part of the file system that a command line can concern,
runs the command line on it, shows the two texts of the run and writes the files that the run has
written. Nothing is decided here.

No other program is started: the banner of an installation is read from the file `VERSION` above
the folder of its executables.
-/
namespace ToolchainChoice.Program

open Files (Path Place Entry Disk)
open Installation (Machine Reply)

/-! ## Capturing the disk -/

/-- The place that a path leads to, if it leads anywhere. -/
def realPlace? (text : String) : IO (Option Place) := do
  try
    return some (Path.ofText (← IO.FS.realPath text).toString).names
  catch _ => return none

/-- A file whose content is known. One that cannot be read is kept as a link to no place. -/
def captureFile (place : Place) : IO Entry := do
  try
    return .file (← IO.FS.readBinFile (Path.ofRoot place).text)
  catch _ => return .link "/\x00"

/-- Whether a run may ask for the content of a file of this name. -/
def isOfInterest (name : String) : Bool :=
  name = Config.fileName || Workspace.manifestNames.contains name

/-- What is at a place that no link is on the way to. Folders that a scan does not enter are left
empty, and so are files that nothing asks for. -/
partial def capture (place : Place) (withContent : Bool) : IO Entry := do
  let path ← IO.FS.realPath (Path.ofRoot place).text
  if ← path.isDir then
    let found ← try path.readDir catch _ => pure #[]
    return .folder (← found.toList.mapM fun e => do
      let child := place ++ [e.fileName]
      let real := (← realPlace? (Path.ofRoot child).text).getD child
      if ← e.path.isDir then
        if real = child ∧ Workspace.isEntered e.fileName then
          return (e.fileName, ← capture child false)
        else return (e.fileName, .empty)
      else if isOfInterest e.fileName then return (e.fileName, ← captureFile real)
      else return (e.fileName, .file .empty))
  else if withContent then captureFile place
  else return .file .empty

/-- The tree with the links that are followed when names are followed from a place. -/
def addLinks (root : Entry) (here : Place) : List String → IO Entry
  | [] => return root
  | name :: names => do
    if name = ".." then addLinks root here.dropLast names
    else
      let child := here ++ [name]
      match ← realPlace? (Path.ofRoot child).text with
      | none => return root
      | some real =>
        if real = child then addLinks root child names
        else addLinks (root.put child (.link (Path.ofRoot real).text)) real names

/-- The texts in a command line that may be paths. -/
def pathTexts (args : List String) : List String :=
  args.flatMap fun arg => [arg, String.ofList ((arg.toList.dropWhile (· != '=')).drop 1)]

/-- The disk as far as the working folder and the paths in a command line lead. -/
def captureDisk (args : List String) : IO Disk := do
  let here := (← realPlace? ".").getD []
  let texts := pathTexts args
  let places := (here :: (← texts.filterMapM realPlace?)).mergeSort fun a b => a.length ≤ b.length
  let root ← places.foldlM
    (fun root place => return root.put place (← capture place true)) Entry.empty
  let root ← texts.foldlM
    (fun root text =>
      let path := Path.ofText text
      addLinks root (if path.start = .current then here else []) path.names) root
  return ⟨root, here⟩

/-! ## The machine and the clock -/

def isFile (text : String) : IO Bool := do
  try
    return (← (← IO.FS.realPath text).metadata).type != .dir
  catch _ => return false

/-- Where an executable is found. A name with a slash in it is a path already. -/
def locate? (executable : String) : IO (Option String) := do
  let candidates ←
    if executable.toList.contains '/' then pure [executable]
    else
      let folders := ((← IO.getEnv "PATH").getD "").splitOn ":"
      pure (folders.map fun folder => ((Path.ofText folder).child executable).text)
  candidates.findM? fun text => isFile text

/-- The banner of the installation that an executable belongs to. -/
def askBanner (executable : String) : IO Reply := do
  try
    let place := Path.ofText (← IO.FS.realPath executable).toString
    let content ← IO.FS.readBinFile (place.parent.parent.child "VERSION").text
    return match String.fromUTF8? content with
      | some output => .exited 0 output
      | none => .undecodable
  catch e => return .refused (toString e)

/-- The machine as far as one executable is concerned. -/
def captureMachine (executable : Option String) : IO Machine := do
  match ← executable.bindM locate? with
  | none => return ⟨fun _ => none, fun _ => .refused "not found"⟩
  | some path =>
    let reply ← askBanner path
    return ⟨fun _ => some path, fun _ => reply⟩

/-- The universal time. -/
def now : IO Calendar.Moment := do
  let elapsed := (← Std.Time.Timestamp.now).toDurationSinceUnixEpoch
  let t := Std.Time.PlainDateTime.ofWallTime (.ofDuration elapsed)
  return (Calendar.Moment.ofNumbers? t.date.year.toInt.toNat t.date.month.toNat t.date.day.toNat
    t.time.hour.toNat t.time.minute.toNat t.time.second.toNat (t.time.nanosecond.toNat / 1000)
    (some 0)).getD default

/-! ## What a run leaves behind -/

/-- Writes the files that are not what they were. -/
def save (before after : Disk) : IO Unit := do
  let old := before.root.files []
  for (place, content) in after.root.files [] do
    unless old.any fun (p, c) => p = place && c == content do
      let path := Path.ofRoot place
      IO.FS.createDirAll path.parent.text
      IO.FS.writeBinFile path.text content

end ToolchainChoice.Program

open ToolchainChoice in
/-- Runs the command line. A failure that is none of the program's own ends with the code 1. -/
def main (args : List String) : IO UInt32 := do
  let disk ← Program.captureDisk args
  let executable := (CommandLine.executable? args disk).bind Symbols.text?
  let machine ← Program.captureMachine executable
  let outcome := CommandLine.run ⟨machine, ← Program.now, .working⟩ args disk
  IO.print outcome.output
  IO.eprint outcome.errors
  Program.save disk outcome.disk
  match outcome.exit with
  | .ok code => return code.toUInt32
  | .error _ => return 1
