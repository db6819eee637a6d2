/-!
# Options on a command line

An option is known by its names, which begin with one hyphen and have one letter more, or begin with
two. It is a flag, takes an argument, or asks for a text to be shown. Reading a command line stops
where a text is to be shown, and at the first mistake.
-/
namespace ToolchainChoice.CommandLine

/-- An argument as it reaches an option: the two hyphens alone, which can only be written in the
word of the option itself, get lost on the way. -/
inductive Argument (α : Type) where
  | lost
  | value (a : α)
  deriving DecidableEq, Repr

namespace Argument

def ofText (text : String) : Argument String := if text = "--" then .lost else .value text

def map (f : α → β) : Argument α → Argument β
  | .lost => .lost
  | .value a => .value (f a)

def value? : Argument α → Option α
  | .lost => none
  | .value a => some a

end Argument

/-- What an option does to the options read so far. -/
inductive Effect (σ : Type) where
  | flag (set : σ → σ)
  | argument (set : Argument String → σ → σ)
  | showing (text : String)

structure OptionSpec (σ : Type) where
  names : List String
  effect : Effect σ

/-- The name of an option in messages. -/
def OptionSpec.title (o : OptionSpec σ) : String := "/".intercalate o.names

def OptionSpec.takesArgument (o : OptionSpec σ) : Bool :=
  match o.effect with
  | .argument _ => true
  | _ => false

/-- The options of a command, and how the command is presented. -/
structure Grammar (σ : Type) where
  program : String
  usage : String
  options : List (OptionSpec σ)

/-- Why the reading of a command line stops. -/
inductive Stop where
  /-- A text is to be shown, and that is all. -/
  | display (text : String)
  /-- The command line cannot be understood. -/
  | refuse (program usage message : String)
  deriving DecidableEq, Repr

/-- The text that tells of a mistake. -/
def Stop.complaint (program usage message : String) : String :=
  usage ++ program ++ ": error: " ++ message ++ "\n"

namespace Grammar

variable (g : Grammar σ)

def refuse (message : String) : Except Stop α := .error (.refuse g.program g.usage message)

/-- A mistake with one option. -/
def refuseOption (o : OptionSpec σ) (message : String) : Except Stop α :=
  g.refuse ("argument " ++ o.title ++ ": " ++ message)

/-- Every name with the option that it is a name of, in order. -/
def names : List (String × OptionSpec σ) :=
  g.options.flatMap fun o => o.names.map fun name => (name, o)

def find? (name : String) : Option (OptionSpec σ) := g.names.lookup name

end Grammar

end ToolchainChoice.CommandLine
