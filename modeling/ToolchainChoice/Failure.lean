import ToolchainChoice.Text.Symbol

/-!
# Failures

Why an operation has no result. The failures of the first group are the program's own: they are
reported to the user by their message. The others pass through every layer of the program
unreported.
-/
namespace ToolchainChoice

/-- What is wrong with a configuration. A `shown` text is a value as it appears in messages. -/
inductive ConfigProblem where
  | fileNotFound (path : String)
  | invalidSyntax (reason : String)
  | emptyFile
  | notMapping
  | unsupportedVersion (plain : Symbols)
  | sectionNotMapping (name : String)
  | fieldNotText (name : String)
  | boundNotText (name shown : String)
  | invalidBound (shown : String)
  | boundsReversed (min max : String)
  | directoryNotText
  deriving DecidableEq, Repr

def ConfigProblem.message : ConfigProblem → Symbols
  | .fileNotFound path => "Configuration file not found: " ++ path
  | .invalidSyntax reason => "Invalid YAML syntax: " ++ reason
  | .emptyFile => "Configuration file is empty"
  | .notMapping => "Configuration must be a mapping"
  | .unsupportedVersion plain => "Unsupported version: " ++ plain ++ " (expected 1)"
  | .sectionNotMapping name => "'" ++ name ++ "' must be a mapping"
  | .fieldNotText name => "toolchain." ++ name ++ " must be a non-empty string"
  | .boundNotText name shown =>
    "supported_range." ++ name ++ " must be a quoted string, got " ++ shown
  | .invalidBound shown =>
    "Invalid supported range bound: " ++ shown ++ " (expected major.minor)"
  | .boundsReversed min max =>
    "Minimum supported version " ++ min ++ " is above maximum supported version " ++ max
  | .directoryNotText => "diagnostics.directory must be a string"

/-- The faults of an output stream. -/
inductive StreamFault where
  /-- The system refuses the operation. -/
  | system
  /-- The system refuses because the reader has gone away. -/
  | brokenPipe
  /-- The stream is in no state to be written. -/
  | value
  /-- The stream does not take what is written. -/
  | type
  /-- Anything else. -/
  | runtime
  deriving DecidableEq, Repr

inductive Failure where
  /-- A text that should be a version is none; `shown` is the text as it appears in messages. -/
  | invalidVersion (shown : String)
  | configuration (problem : ConfigProblem)
  | rootNotDirectory (path : String)
  /-- A number is longer than `Number.digitLimit` digits. -/
  | numberTooLong
  /-- A text that must be a number is none. -/
  | notANumber
  /-- A text that must be a number has no digits at all. -/
  | emptyNumber
  /-- A text that must be a truth value is none. -/
  | notATruthValue
  /-- A text that must be a date or a moment is none. -/
  | notATimeStamp
  /-- An escape by a code that no character has. -/
  | noSuchCharacter (code : Nat)
  /-- A date or a time of day that does not exist. -/
  | noSuchMoment
  /-- A collection stands where only a text can be read. -/
  | notAText
  /-- A number is beyond the floats. -/
  | numberTooLarge
  /-- Something is nested too deeply. -/
  | tooDeep
  /-- A text file, or what a program prints, is not UTF-8. -/
  | notUtf8
  /-- A directory was opened as a file. -/
  | isDirectory
  /-- A path holds a NUL character. -/
  | nulInPath
  /-- A path holds half a character that has no octet. -/
  | unencodable
  /-- An option that takes a path has lost it. -/
  | noPath
  /-- An option that takes a version has lost it. -/
  | noVersionText
  /-- A path has a name, or is, longer than the system takes. -/
  | nameTooLong
  /-- A path cannot be resolved because its links run in a circle. -/
  | linkLoop
  | stream (fault : StreamFault)
  /-- The user interrupted the run. -/
  | interrupted
  deriving DecidableEq, Repr

namespace Failure

/-- The text of a failure that is the program's own. -/
def message? : Failure → Option Symbols
  | .invalidVersion shown => some ("Invalid version: " ++ shown)
  | .configuration problem => some problem.message
  | .rootNotDirectory path => some ("Project root is not a directory: " ++ path)
  | _ => none

end Failure

end ToolchainChoice
