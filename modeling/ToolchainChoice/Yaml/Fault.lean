import ToolchainChoice.Failure

/-!
# Faults of a YAML text

A text that is no document of the format is reported with a reason. Some scalars have a form that
promises a value which does not exist; that is a failure of another kind, and is not reported as a
fault of the text.
-/
namespace ToolchainChoice.Yaml

inductive Fault where
  | syntaxFault (reason : String)
  /-- The text ends where it must go on. -/
  | unfinished (reason : String)
  | failure (f : Failure)
  deriving DecidableEq, Repr

/-- The failure to read a configuration that a fault of its text is. -/
def Fault.toFailure : Fault → Failure
  | .syntaxFault reason => .configuration (.invalidSyntax reason)
  | .unfinished reason => .configuration (.invalidSyntax reason)
  | .failure f => f

/-- The result of reading, or the fault that stops it. -/
abbrev Result := Except Fault

def reject (reason : String) : Result α := .error (.syntaxFault reason)

/-- Rejects a text for what stands at the start of `cs`, or for what is missing there. -/
def rejectAt (cs : List Char) (reason : String) : Result α :=
  if cs.isEmpty then .error (.unfinished reason) else reject reason

def failWith (f : Failure) : Result α := .error (.failure f)

end ToolchainChoice.Yaml
