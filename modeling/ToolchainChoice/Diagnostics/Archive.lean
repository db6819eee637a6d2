import ToolchainChoice.Calendar.Moment
import ToolchainChoice.Decision.Advice
import ToolchainChoice.Files.Spelling
import ToolchainChoice.Json.Encode
import ToolchainChoice.Trace

/-!
# The archive of diagnostics

An archive keeps every diagnostic in a file of its own. The name of a file has the time and the
number of the diagnostic in it; diagnostics are numbered from one, and one that could not be
written keeps its number, so no two have the same name whatever the clock does.
-/
namespace ToolchainChoice

/-- A message and the code of the outcome that it explains. -/
structure Diagnostic where
  message : Symbols
  code : Decision.Code
  deriving DecidableEq, Repr

namespace Diagnostics

open Files (Path Disk)
open Calendar (Moment)

structure Archive where
  /-- The folder as it was given. -/
  directory : Symbols
  /-- The tool that the diagnostics name as their source. -/
  source : Symbols
  /-- How many diagnostics have been received. -/
  count : Nat := 0
  deriving DecidableEq, Repr

/-- The content of a file of an archive. -/
def document (source : Symbols) (now : Moment) (d : Diagnostic) : Json :=
  .object [
    ("timestamp", .string (String.ofList (now.isoText 'T'))),
    ("source", .object [
      ("id", .string (source ++ "/autobuilder/env-" ++ d.code.slug)),
      ("name", .string d.code.title),
      ("extractorName", .string source)]),
    ("markdownMessage", .string d.message),
    ("severity", .string "note"),
    ("visibility", .object [
      ("statusPage", .bool false),
      ("cliSummaryTable", .bool false),
      ("telemetry", .bool true)])]

/-- The name of the file of diagnostic number `n`. -/
def fileName (now : Moment) (n : Nat) : String :=
  "autobuilder-" ++ String.ofList now.stamp ++ "-" ++ toString n ++ ".json"

/-- Makes a folder and writes a file into it. -/
def store (folder : Except Files.Fault Path) (name : String) (content : ByteArray) (disk : Disk) :
    Disk × Except Files.Fault Unit :=
  match folder with
  | .error fault => (disk, .error fault)
  | .ok folder =>
    match Files.makeFolders folder.start folder.names disk with
    | (disk, .error fault) => (disk, .error fault)
    | (disk, .ok ()) =>
      match disk.write (folder.child name) content with
      | .ok disk => (disk, .ok ())
      | .error fault => (disk, .error fault)

/-- What an operation that emits leaves behind: its sink and the disk, whether it succeeds or
fails, and its trace. -/
structure Emission (σ α : Type) where
  sink : σ
  disk : Disk
  trace : Traced α

/-- Writes a diagnostic to a file of the archive. -/
def Archive.emit (a : Archive) (now : Moment) (d : Diagnostic) (disk : Disk) :
    Emission Archive Unit :=
  let number := a.count + 1
  let sink := { a with count := number }
  let name := fileName now number
  let file := ((Files.Spelling.ofText a.directory).child name).text
  match Files.locate a.directory with
  | .error e => ⟨sink, disk, .fail e⟩
  | .ok folder =>
    match store folder name (document a.source now d).encodeIndented.toUTF8 disk with
    | (disk, .ok ()) =>
      ⟨sink, disk, .debug .diagnostics ("Wrote diagnostic " ++ d.code.slug ++ " to " ++ file)⟩
    | (disk, .error fault) =>
      ⟨sink, disk, .log .warning .diagnostics
        ("Failed to write diagnostic " ++ d.code.slug ++ " to " ++ file ++ ": " ++ fault.message)⟩

end Diagnostics

end ToolchainChoice
