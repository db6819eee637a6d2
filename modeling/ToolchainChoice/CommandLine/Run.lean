import ToolchainChoice.CommandLine.Options
import ToolchainChoice.Config.File
import ToolchainChoice.Files.Resolve
import ToolchainChoice.Identification

/-!
# Running a command line

A run ends with an exit code, or with a failure that is none of the program's own and so passes
through. How much of the log is shown, and in which form, is the only thing that the options for it
decide.
-/
namespace ToolchainChoice.CommandLine

open Files (Path Disk)
open Config (Settings)

/-- What a run leaves behind. -/
structure Outcome where
  /-- The exit code, or the failure that ends the run. -/
  exit : Except Failure Nat
  output : String
  errors : String
  disk : Disk

/-! ## The two commands -/

/-- The path that is the argument of an option. -/
def pathOf : Argument Path → Except Failure Path
  | .lost => .error .noPath
  | .value path => .ok path

/-- The settings for the workspace at `root`. -/
def Options.load (o : Options) (disk : Disk) (root : Path) : Traced Settings := do
  match o.config with
  | none => Config.load disk root none
  | some config => do
    let path ← pathOf config
    Config.load disk root (some path)

/-- What one version of the `decide` command is found to be. -/
def given (version : Option (Argument String)) : Traced Observation :=
  match version with
  | none => return .missing
  | some .lost => .fail .noVersionText
  | some (.value text) => do
    let _ ← Version.require text
    return .seen text

/-- Decides for versions that are given. -/
def decideGiven (s : Surroundings) (o : Options) (declared installed : Option (Argument String))
    (disk : Disk) : Traced Unit := do
  let root ← pathOf o.root
  let settings ← o.load disk root
  let survey : Survey := ⟨← given declared, ← given installed⟩
  let advice ← ((settings.advisor .standardLog).advise s.now survey disk).trace
  let _ ← report s.stream advice.version settings.toolchain.key

/-- The root of the workspace and the settings for it. -/
def prepare (o : Options) (folder : Option Path) (disk : Disk) : Traced (Path × Settings) := do
  let path ← pathOf o.root
  let root ← disk.resolve path
  let settings ← o.load disk root
  let settings := match folder with
    | none => settings
    | some folder => { settings with directory := some folder.text }
  .debug .identifyCommand ("Identifying environment for " ++ root.text)
  return (root, settings)

/-- Identifies the environment of the workspace. -/
def identifyWorkspace (s : Surroundings) (o : Options) (folder : Option Path) (disk : Disk) :
    Disk × Traced Unit :=
  let prepared := prepare o folder disk
  match prepared.result with
  | .error e => (disk, ⟨prepared.events, .error e⟩)
  | .ok (root, settings) =>
    let run := s.identify settings settings.sink (Workspace.observe disk root) disk
    (run.disk, do
      let _ ← prepared
      let _ ← run.trace)

def perform (s : Surroundings) (o : Options) (disk : Disk) : Command → Disk × Traced Unit
  | .identify folder => identifyWorkspace s o folder disk
  | .decide declared installed => (disk, decideGiven s o declared installed disk)

/-- What is said of a command that there is none of; the exit code goes with it. -/
def unknownCommand (name : String) : Traced Nat := do
  .log .error .commandLine ("Unknown command: " ++ name)
  return 1

/-! ## The end of a run -/

/-- The exit code of a run that the user has interrupted. -/
def interruptedCode : Nat := 130

/-- The exit code of a run. A failure that is the program's own is told. -/
def conclude (run : Traced Unit) : Traced Nat :=
  match run.result with
  | .ok () => ⟨run.events, .ok 0⟩
  | .error e =>
    let last (level : Log.Level) (message : Symbols) (code : Nat) : Traced Nat :=
      ⟨run.events ++ [.logged ⟨level, .commandLine, message⟩], .ok code⟩
    if e = .interrupted then last .info "Operation cancelled by user" interruptedCode
    else
      match e.message? with
      | some message => last .error ("Error: " ++ message) 1
      | none => ⟨run.events, .error e⟩

/-! ## The log as it is shown -/

/-- How much of a log is shown. -/
inductive Verbosity where
  | quiet
  | normal
  | verbose
  deriving DecidableEq, Repr

/-- Asking for everything is stronger than asking for little. -/
def Options.verbosity (o : Options) : Verbosity :=
  if o.verbose then .verbose else if o.quiet then .quiet else .normal

namespace Verbosity

def threshold : Verbosity → Log.Level
  | .quiet => .error
  | .normal => .info
  | .verbose => .debug

def line (v : Verbosity) (r : Log.Record) : String :=
  match v with
  | .quiet => r.level.name ++ ": " ++ r.message.shown ++ "\n"
  | .normal => r.message.shown ++ "\n"
  | .verbose => r.level.name ++ " [" ++ r.source.name ++ "] " ++ r.message.shown ++ "\n"

/-- The records that are shown, a line each. -/
def render (v : Verbosity) (records : List Log.Record) : String :=
  String.join ((records.filter (Log.Record.isKept v.threshold)).map v.line)

/-- What follows the log if the run failed for a reason of its own. -/
def traceText (v : Verbosity) (run : Traced Unit) : String :=
  match v, run.result with
  | .verbose, .error e =>
    match e.message? with
    | some message => "Traceback (most recent call last):\n" ++ message.shown ++ "\n"
    | none => ""
  | _, _ => ""

end Verbosity

/-- Shows a text on the stream. No fault of the stream is passed over. -/
def showText (stream : Stream) (text : String) : Traced Unit := do
  match ← stream.write text with
  | none => return
  | some trouble => .fail (.stream trouble.fault)

/-- A run that shows a text and ends with an exit code. -/
def showAndExit (s : Surroundings) (text : String) (code : Nat) (disk : Disk) : Outcome :=
  let run := showText s.stream text
  ⟨run.result.map fun _ => code, run.output, "", disk⟩

/-- Runs a command. -/
def runCommand (s : Surroundings) (o : Options) (command : Command) (disk : Disk) : Outcome :=
  let (disk, run) := perform s o disk command
  let ended := conclude run
  ⟨ended.result, run.output,
    o.verbosity.render ended.records ++ o.verbosity.traceText run, disk⟩

/-- The executable that a command line asks for, as far as its options and settings can be read. -/
def executable? (texts : List String) (disk : Disk) : Option Symbols :=
  match Options.read (.ofRoot disk.here) texts with
  | .error _ => none
  | .ok o => ((pathOf o.root).toOption.bind fun root => (o.load disk root).result.toOption).map
      Settings.executable

/-- Runs a command line. -/
def run (s : Surroundings) (texts : List String) (disk : Disk) : Outcome :=
  match Options.read (.ofRoot disk.here) texts with
  | .error (.display text) => showAndExit s text 0 disk
  | .error (.refuse program usage message) =>
    ⟨.ok 2, "", Stop.complaint program usage message, disk⟩
  | .ok o =>
    match o.command with
    | none => showAndExit s helpText 1 disk
    | some command => runCommand s o command disk

end ToolchainChoice.CommandLine
