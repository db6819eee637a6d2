import ToolchainChoice.Diagnostics.Archive

/-!
# Diagnostic sinks

Where diagnostics go: nowhere, into the log, into memory in the order of emission, or into an
archive.
-/
namespace ToolchainChoice.Diagnostics

open Files (Disk)
open Calendar (Moment)

inductive Sink where
  | discard
  | logging (level : Log.Level)
  | recording (received : List Diagnostic)
  | archive (a : Archive)
  deriving DecidableEq, Repr

namespace Sink

/-- The sink that is used where none is configured. -/
def standardLog : Sink := .logging .info

/-- The text of a diagnostic in the log. -/
def logText (d : Diagnostic) : Symbols := "[" ++ d.code.slug ++ "] " ++ d.message

def emit (sink : Sink) (now : Moment) (d : Diagnostic) (disk : Disk) :
    Emission Sink Unit :=
  match sink with
  | .discard => ⟨.discard, disk, pure ()⟩
  | .logging level => ⟨.logging level, disk, .log level .diagnostics (logText d)⟩
  | .recording received => ⟨.recording (received ++ [d]), disk, pure ()⟩
  | .archive a =>
    let e := a.emit now d disk
    ⟨.archive e.sink, e.disk, e.trace⟩

/-- Whether the message of a diagnostic shows up in the log by itself. -/
def isLogging : Sink → Bool
  | .logging _ => true
  | _ => false

/-- What a recording sink has received. -/
def received : Sink → List Diagnostic
  | .recording received => received
  | _ => []

end Sink

end ToolchainChoice.Diagnostics
