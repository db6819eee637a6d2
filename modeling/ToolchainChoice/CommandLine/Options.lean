import ToolchainChoice.CommandLine.Reading
import ToolchainChoice.Files.Path

/-!
# The options of the program

The program has options of its own and two commands with options of theirs. The words before the
command are the program's, those after it the command's; what neither understands is a mistake that
is found last, after every option has been seen.
-/
namespace ToolchainChoice.CommandLine

open Files (Path)

/-- What the program is asked to do. -/
inductive Command where
  /-- To look at the workspace and the machine. -/
  | identify (folder : Option Path)
  /-- To decide for versions that are given. -/
  | decide (declared installed : Option (Argument String))
  deriving DecidableEq, Repr

structure Options where
  verbose : Bool := false
  quiet : Bool := false
  config : Option (Argument Path) := none
  root : Argument Path
  command : Option Command := none
  deriving DecidableEq, Repr

/-- What is shown when the program is asked for its version. -/
def versionText : String := "ToolchainEnv 0.1.0\n"

def usageText : String :=
  "usage: tkenv [-h] [--version] [--verbose] [--quiet] [--config PATH]\n" ++
  "             [--project-root PATH]\n" ++
  "             COMMAND ...\n"

def helpText : String :=
  usageText ++
  "\n" ++
  "ToolchainEnv - pick the toolchain version a build needs\n" ++
  "\n" ++
  "positional arguments:\n" ++
  "  COMMAND               Available commands\n" ++
  "    identify-environment\n" ++
  "                        Print the toolchain version to install as JSON\n" ++
  "    decide              Decide for given versions without scanning\n" ++
  "\n" ++
  "options:\n" ++
  "  -h, --help            show this help message and exit\n" ++
  "  --version             show program's version number and exit\n" ++
  "  --verbose, -v         Enable verbose output\n" ++
  "  --quiet, -q           Enable minimal output (errors only)\n" ++
  "  --config PATH         Path to configuration file (default:\n" ++
  "                        ./toolchainenv.yaml)\n" ++
  "  --project-root PATH   Project root directory (default: current directory)\n" ++
  "\n" ++
  "Use \"tkenv COMMAND --help\" for command-specific help\n"

def identifyUsage : String := "usage: tkenv identify-environment [-h] [--diagnostic-dir PATH]\n"

def identifyHelp : String :=
  identifyUsage ++
  "\n" ++
  "Scan the workspace and the environment, then print the toolchain version to\n" ++
  "install as JSON on stdout\n" ++
  "\n" ++
  "options:\n" ++
  "  -h, --help            show this help message and exit\n" ++
  "  --diagnostic-dir PATH\n" ++
  "                        Write JSON diagnostics to this directory (overrides\n" ++
  "                        config)\n"

def decideUsage : String :=
  "usage: tkenv decide [-h] [--manifest-version VERSION] [--env-version VERSION]\n"

def decideHelp : String :=
  decideUsage ++
  "\n" ++
  "Run the decision for explicit manifest/environment versions and print the\n" ++
  "environment JSON\n" ++
  "\n" ++
  "options:\n" ++
  "  -h, --help            show this help message and exit\n" ++
  "  --manifest-version VERSION\n" ++
  "                        Version declared by the manifest (omit if none)\n" ++
  "  --env-version VERSION\n" ++
  "                        Version installed in the environment (omit if none)\n"

def programGrammar : Grammar Options where
  program := "tkenv"
  usage := usageText
  options := [
    ⟨["-h", "--help"], .showing helpText⟩,
    ⟨["--version"], .showing versionText⟩,
    ⟨["--verbose", "-v"], .flag fun o => { o with verbose := true }⟩,
    ⟨["--quiet", "-q"], .flag fun o => { o with quiet := true }⟩,
    ⟨["--config"], .argument fun a o => { o with config := some (a.map .ofText) }⟩,
    ⟨["--project-root"], .argument fun a o => { o with root := a.map .ofText }⟩]

def identifyGrammar : Grammar (Option Path) where
  program := "tkenv identify-environment"
  usage := identifyUsage
  options := [
    ⟨["-h", "--help"], .showing identifyHelp⟩,
    ⟨["--diagnostic-dir"], .argument fun a _ => a.value?.map .ofText⟩]

def decideGrammar : Grammar (Option (Argument String) × Option (Argument String)) where
  program := "tkenv decide"
  usage := decideUsage
  options := [
    ⟨["-h", "--help"], .showing decideHelp⟩,
    ⟨["--manifest-version"], .argument fun a o => (some a, o.2)⟩,
    ⟨["--env-version"], .argument fun a o => (o.1, some a)⟩]

/-- Reads all words as options of a grammar. -/
def readAll (g : Grammar σ) (start : σ) (texts : List String) : Except Stop (σ × List String) := do
  let ws ← words g texts
  let r ← readOptions g false (ws.length + 1) start ws
  return (r.state, r.leftOver)

def commandNames : List String := ["identify-environment", "decide"]

/-- Reads a command from its name and the words after it. -/
def readCommand (name : String) (texts : List String) : Except Stop (Command × List String) :=
  if name = "identify-environment" then
    (readAll identifyGrammar none texts).map fun (folder, rest) => (.identify folder, rest)
  else if name = "decide" then
    (readAll decideGrammar (none, none) texts).map fun ((declared, installed), rest) =>
      (.decide declared installed, rest)
  else
    programGrammar.refuse ("argument COMMAND: invalid choice: " ++ Text.quoted name ++
      " (choose from " ++ ", ".intercalate (commandNames.map Text.quoted) ++ ")")

/-- Reads the command that the words begin with, if there is one. The divider is a command of that
name if something follows it. -/
def readTail (texts : List String) : Except Stop (Option Command × List String) :=
  match texts with
  | [] => .ok (none, [])
  | name :: rest =>
    if name = "--" ∧ rest = [] then .ok (none, ["--"])
    else (readCommand name rest).map fun (command, rest) => (some command, rest)

/-- Reads a command line. Without an option for it, the root of the workspace is `here`. -/
def Options.read (here : Path) (texts : List String) : Except Stop Options := do
  let ws ← words programGrammar texts
  let r ← readOptions programGrammar true (ws.length + 1) { root := .value here } ws
  let (command, leftOver) ← readTail (texts.drop (texts.length - r.rest.length))
  match r.leftOver ++ leftOver with
  | [] => return { r.state with command }
  | unknown => programGrammar.refuse ("unrecognized arguments: " ++ " ".intercalate unknown)

end ToolchainChoice.CommandLine
