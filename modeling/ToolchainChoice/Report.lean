import ToolchainChoice.Json.Encode
import ToolchainChoice.Trace

/-!
# Reporting the environment

The version to install is written as one JSON object with a single key. A fault of the stream that
is the system's, or says that the stream cannot be written, is logged and does not undo what has
been decided; any other fault passes on.
-/
namespace ToolchainChoice

/-- The environment: nothing under the key if the version is empty. -/
def environment (version : String) (key : Symbols) : Json :=
  .object [(key, .object (if version = "" then [] else [("version", .string version)]))]

/-- A fault with the text that tells about it. -/
structure StreamTrouble where
  fault : StreamFault
  text : String
  deriving DecidableEq, Repr

/-- A stream to write to: what every write and every flush meets, if anything. -/
structure Stream where
  onWrite : Option StreamTrouble := none
  onFlush : Option StreamTrouble := none
  deriving DecidableEq, Repr

namespace Stream

def working : Stream := {}

/-- A stream that has been closed. -/
def closed : Stream := { onWrite := some ⟨.value, "I/O operation on closed file"⟩ }

/-- Writes a text; the trouble is met before anything is written. -/
def write (s : Stream) (text : String) : Traced (Option StreamTrouble) :=
  match s.onWrite with
  | some trouble => return some trouble
  | none => do
    .print text
    return none

end Stream

/-- Whether a fault is logged instead of passed on. -/
def StreamFault.isLogged : StreamFault → Bool
  | .system | .brokenPipe | .value => true
  | .type | .runtime => false

def troubled (trouble : StreamTrouble) : Traced Bool :=
  if trouble.fault.isLogged then do
    .log .error .report ("Failed to write environment json to stdout: " ++ trouble.text)
    return false
  else .fail (.stream trouble.fault)

/-- Writes the environment; the result says whether it was written and flushed. -/
def report (stream : Stream) (version : String) (key : Symbols) : Traced Bool := do
  match ← stream.write (environment version key).encode with
  | some trouble => troubled trouble
  | none =>
    match stream.onFlush with
    | some trouble => troubled trouble
    | none => return true

end ToolchainChoice
