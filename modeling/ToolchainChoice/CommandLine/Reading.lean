import ToolchainChoice.CommandLine.Word
import ToolchainChoice.Text.Quoted

/-!
# Reading options

The options of a command line take effect in the order of the words. Letters that share a word are
understood together before the first of them takes effect. Words that no option takes and that are
not known are left over; it is for the caller to say what is to be done about them.
-/
namespace ToolchainChoice.CommandLine

/-- The options in one word: flags, and one that may want an argument, with what the word itself
gives as that. -/
structure Cluster (σ : Type) where
  flags : List (OptionSpec σ)
  last : OptionSpec σ
  given : Option String

/-- The options in a word that goes on with `cs` after an option and its name. Behind a flag with a
one-letter name every character is a flag of its own. -/
def clusterWithin (g : Grammar σ) (o : OptionSpec σ) (name : String) (cs : List Char) :
    Except Stop (Cluster σ) :=
  let given := String.ofList cs
  if o.takesArgument then .ok ⟨[], o, some given⟩
  else
    let ignored : Except Stop (Cluster σ) :=
      g.refuseOption o ("ignored explicit argument " ++ Text.quoted given)
    match cs with
    | [] => ignored
    | c :: rest =>
      if isLong name.toList then ignored
      else
        let next := String.ofList ['-', c]
        match g.find? next with
        | none => ignored
        | some p =>
          if rest.isEmpty then .ok ⟨[o], p, none⟩
          else (clusterWithin g p next rest).map fun k => { k with flags := o :: k.flags }

/-- The options in a word that begins with an option and its name. -/
def cluster (g : Grammar σ) (o : OptionSpec σ) (name : String) (argument : Option (List Char)) :
    Except Stop (Cluster σ) :=
  match argument with
  | none => .ok ⟨[], o, none⟩
  | some cs => clusterWithin g o name cs

/-- The options after one of them with its argument. -/
def OptionSpec.take (o : OptionSpec σ) (argument : Option String) (state : σ) : Except Stop σ :=
  match o.effect, argument with
  | .flag set, _ => .ok (set state)
  | .showing text, _ => .error (.display text)
  | .argument set, some text => .ok (set (.ofText text) state)
  | .argument _, none => .ok state

/-- The argument of the last option in a word, which is the next word unless the word itself gives
it, and the words that are left. -/
def lastArgument (g : Grammar σ) (k : Cluster σ) (rest : List (Word σ)) :
    Except Stop (Option String × List (Word σ)) :=
  if k.last.takesArgument then
    match k.given, rest with
    | some text, _ => .ok (some text, rest)
    | none, .plain text :: rest => .ok (some text, rest)
    | none, _ => g.refuseOption k.last "expected one argument"
  else .ok (none, rest)

/-- The options after one word, with the words that are left. -/
def applyCluster (g : Grammar σ) (state : σ) (k : Cluster σ) (rest : List (Word σ)) :
    Except Stop (σ × List (Word σ)) := do
  let (argument, rest) ← lastArgument g k rest
  let state ← k.flags.foldlM (fun (state : σ) (o : OptionSpec σ) => o.take none state) state
  return (← k.last.take argument state, rest)

/-- What reading options yields. -/
structure Reading (σ : Type) where
  state : σ
  /-- Words that are not understood. -/
  leftOver : List String
  /-- The words from the first one on that is not an option, where the reading ends there. -/
  rest : List (Word σ)

/-- Reads options, up to the first word that is none if `stopping`, and else all of them. Every
round takes a word. -/
def readOptions (g : Grammar σ) (stopping : Bool) (rounds : Nat) (state : σ)
    (ws : List (Word σ)) : Except Stop (Reading σ) :=
  match rounds with
  | 0 => .ok ⟨state, [], ws⟩
  | rounds + 1 =>
    match ws with
    | [] => .ok ⟨state, [], []⟩
    | .unknown text :: rest => do
      let r ← readOptions g stopping rounds state rest
      return { r with leftOver := text :: r.leftOver }
    | .option o name argument :: rest => do
      let k ← cluster g o name argument
      let (state, rest) ← applyCluster g state k rest
      readOptions g stopping rounds state rest
    | word :: rest =>
      if stopping then .ok ⟨state, [], word :: rest⟩
      else do
        let r ← readOptions g stopping rounds state rest
        return { r with leftOver := word.text?.toList ++ r.leftOver }

end ToolchainChoice.CommandLine
