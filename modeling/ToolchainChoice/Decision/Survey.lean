/-!
# What is known about a version

A survey is what the decision starts from: the version that the manifests declare and the version
that is installed. The text of an observation means something only if the version was found.
-/
namespace ToolchainChoice

structure Observation where
  text : String
  found : Bool
  deriving DecidableEq, Repr, Inhabited

namespace Observation

def missing : Observation := ⟨"", false⟩

def seen (text : String) : Observation := ⟨text, true⟩

def ofOption : Option String → Observation
  | none => missing
  | some text => seen text

end Observation

structure Survey where
  declared : Observation
  installed : Observation
  deriving DecidableEq, Repr, Inhabited

namespace Survey

def truth (b : Bool) : String := if b then "True" else "False"

/-- The survey as one line. -/
def text (s : Survey) : String :=
  "manifest version: " ++ s.declared.text ++
  ", manifest directive found: " ++ truth s.declared.found ++
  ", environment version: " ++ s.installed.text ++
  ", installation found: " ++ truth s.installed.found

end Survey

end ToolchainChoice
