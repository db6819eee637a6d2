import ToolchainChoice.Files.Path
import ToolchainChoice.Installation.Banner
import ToolchainChoice.Range
import ToolchainChoice.Trace

/-!
# Probing the installed toolchain

What is installed is known from two questions to the machine: where an executable is found, and
what happens when the one found there is asked for its version. An installation that cannot be
asked, or gives no version, counts as none; but what it prints has to be text in UTF-8, or the question
fails.
-/
namespace ToolchainChoice.Installation

open Files (Path)

/-- What happens when an executable is asked for its version. -/
inductive Reply where
  | exited (code : Int) (output : String)
  /-- The executable has ended, and what it printed is not UTF-8. -/
  | undecodable
  | timedOut
  /-- The executable cannot be started. -/
  | refused (reason : String)
  /-- The user stops the run while waiting. -/
  | interrupted
  deriving DecidableEq, Repr

structure Machine where
  /-- Where an executable of a name is found; the empty text means nowhere. -/
  find : Symbols → Option String
  reply : Path → Reply

def Machine.locate (m : Machine) (executable : Symbols) : Option Path :=
  match m.find executable with
  | none => none
  | some path => if path = "" then none else some (.ofText path)

/-- An installed toolchain. -/
structure Installed where
  version : String
  path : Path
  deriving DecidableEq, Repr

def unusable (message : Symbols) : Traced (Option Installed) := do
  .debug .installation message
  return none

/-- How much of an output is quoted. -/
def quotedLength : Nat := 200

/-- The toolchain at a path, from its output. -/
def ofOutput (path : Path) (output : String) : Traced (Option Installed) :=
  let unparsed : Traced (Option Installed) :=
    unusable ("Could not parse version from output: " ++
      String.ofList (output.toList.take quotedLength))
  match banner? output with
  | none => unparsed
  | some version => do
    if ← Version.isValid version then
      .debug .installation ("Found go " ++ version ++ " at " ++ path.text)
      return some ⟨version, path⟩
    else unparsed

def ofReply (path : Path) : Reply → Traced (Option Installed)
  | .exited code output =>
    if code = 0 then ofOutput path output
    else unusable (path.text ++ " version returned " ++ toString code)
  | .undecodable => .fail .notUtf8
  | .timedOut => unusable ("Timeout running " ++ path.text ++ " version")
  | .refused reason => unusable ("Failed to run " ++ path.text ++ " version: " ++ reason)
  | .interrupted => .fail .interrupted

/-- The toolchain that an executable of this name belongs to, if there is a usable one. -/
def detect (m : Machine) (executable : Symbols) : Traced (Option Installed) :=
  match m.locate executable with
  | none => unusable (executable ++ " not found in PATH")
  | some path => ofReply path (m.reply path)

end ToolchainChoice.Installation
