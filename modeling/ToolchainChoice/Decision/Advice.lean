import ToolchainChoice.Decision.Table
import ToolchainChoice.Decision.Template
import ToolchainChoice.Log

/-!
# The decision

From a survey to an advice: the version to install, or none, with the diagnostic code and the
message that justify it. The decision is a function of the supported range, the naming of the
toolchain and the survey.
-/
namespace ToolchainChoice

/-- How the toolchain is named: in messages, in the written environment, and its manifest. -/
structure Toolchain where
  name : Symbols := "Go"
  key : Symbols := "go"
  manifest : Symbols := "go.mod"
  deriving DecidableEq, Repr, Inhabited

structure Advice where
  message : Symbols
  /-- The version to install; empty if nothing is to be installed. -/
  version : String
  code : Decision.Code
  deriving DecidableEq, Repr, Inhabited

def Advice.requiresInstall (a : Advice) : Bool := a.version != ""

namespace Decision

def Reference.version (range : SupportedRange) (survey : Survey) : Reference → String
  | .declared => survey.declared.text
  | .greatest => range.max

/-- The code that a cell gives for a survey. -/
def Cell.resolve (range : SupportedRange) (survey : Survey) : Cell → Except Failure Code
  | .fixed code => .ok code
  | .compared reference lower reached => do
    let order ← Version.compareTexts (reference.version range survey) survey.installed.text
    return if order = .gt then lower else reached

/-- The diagnostic code of a survey. The declared version is classified first. -/
def resolve (range : SupportedRange) (survey : Survey) : Except Failure Code := do
  let declared ← State.classify range survey.declared
  let installed ← State.classify range survey.installed
  (cell declared installed).resolve range survey

def Target.version (range : SupportedRange) (survey : Survey) : Target → String
  | .nothing => ""
  | .least => range.min
  | .greatest => range.max
  | .declared => survey.declared.text

/-- What a slot of a message holds. -/
def Slot.fill (range : SupportedRange) (toolchain : Toolchain) (survey : Survey) : Slot → Symbols
  | .name => toolchain.name
  | .manifest => toolchain.manifest
  | .declared => survey.declared.text
  | .installed => survey.installed.text
  | .least => range.min
  | .greatest => range.max

def adviceOf (range : SupportedRange) (toolchain : Toolchain) (survey : Survey) (code : Code) :
    Advice where
  message := code.template.render (Slot.fill range toolchain survey)
  version := code.target.version range survey
  code := code

end Decision

open Decision in
/-- The advice for a survey. -/
def advise (range : SupportedRange) (toolchain : Toolchain) (survey : Survey) :
    Except Failure Advice :=
  (resolve range survey).map (adviceOf range toolchain survey)

end ToolchainChoice
