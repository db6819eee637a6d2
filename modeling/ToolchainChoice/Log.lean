import ToolchainChoice.Text.Symbol

/-!
# Log records

A record has a level, the part of the program that it comes from, and a message. Levels are ranks
on an open scale, five of which have a name. A record below the first rank above zero is never
kept; which of the others are kept, and how they are written, is decided where they are read.
-/
namespace ToolchainChoice.Log

/-- A rank on the scale of levels. -/
structure Level where
  rank : Int
  deriving DecidableEq, Repr

namespace Level

def debug : Level := ⟨10⟩
def info : Level := ⟨20⟩
def warning : Level := ⟨30⟩
def error : Level := ⟨40⟩
def critical : Level := ⟨50⟩

def name (l : Level) : String :=
  if l = debug then "DEBUG"
  else if l = info then "INFO"
  else if l = warning then "WARNING"
  else if l = error then "ERROR"
  else if l = critical then "CRITICAL"
  else "Level " ++ toString l.rank

end Level

/-- The parts of the program that keep a log. -/
inductive Source where
  | commandLine
  | identifyCommand
  | configuration
  | workspace
  | installation
  | identification
  | decision
  | diagnostics
  | report
  deriving DecidableEq, Repr

def Source.name : Source → String
  | .commandLine => "toolchainenv.cli.parser"
  | .identifyCommand => "toolchainenv.cli.commands.identify_environment"
  | .configuration => "toolchainenv.config.parser"
  | .workspace => "toolchainenv.workspace.scanner"
  | .installation => "toolchainenv.toolchain.probe"
  | .identification => "toolchainenv.environment.identify"
  | .decision => "toolchainenv.environment.decision"
  | .diagnostics => "toolchainenv.environment.diagnostics"
  | .report => "toolchainenv.environment.reporter"

structure Record where
  level : Level
  source : Source
  message : Symbols
  deriving DecidableEq, Repr

/-- Whether a record is kept by a reader that asks for `threshold` and above. -/
def Record.isKept (threshold : Level) (r : Record) : Bool :=
  0 < r.level.rank && threshold.rank ≤ r.level.rank

end ToolchainChoice.Log
