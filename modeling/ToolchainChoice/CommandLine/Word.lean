import ToolchainChoice.CommandLine.Grammar
import ToolchainChoice.Text.Digit

/-!
# The words of a command line

Every word is told to be an option or not before any of them takes effect. A word that begins with a
hyphen is an option unless it is the hyphen alone, a negative number, or a text with a space. A long
name may be cut short as long as only one name begins so; letters behind a one-letter name belong to
the same word. After two hyphens no word is an option.
-/
namespace ToolchainChoice.CommandLine

/-- A word as it is understood. -/
inductive Word (σ : Type) where
  /-- Not an option. -/
  | plain (text : String)
  /-- The two hyphens after which no word is an option. -/
  | divider
  /-- An option that is not known. -/
  | unknown (text : String)
  /-- An option under one of its names, with what the word itself gives as its argument. -/
  | option (o : OptionSpec σ) (name : String) (argument : Option (List Char))

/-- The word as it was written, for a word that is no known option. -/
def Word.text? : Word σ → Option String
  | .plain text => some text
  | .divider => some "--"
  | .unknown text => some text
  | .option .. => none

/-- What stands before the first equals sign, and what follows it. -/
def splitEquals (cs : List Char) : List Char × Option (List Char) :=
  match cs.dropWhile (· != '=') with
  | [] => (cs, none)
  | _ :: rest => (cs.takeWhile (· != '='), some rest)

/-- Whether a word is a number with a minus sign: digits, which a point may divide or begin. -/
def isNegativeNumber : List Char → Bool
  | '-' :: cs =>
    let ends (cs : List Char) : Bool := cs == [] || cs == ['\n']
    let whole := cs.takeWhile Text.isDecimalDigit
    match cs.dropWhile Text.isDecimalDigit with
    | '.' :: rest =>
      let fraction := rest.takeWhile Text.isDecimalDigit
      !fraction.isEmpty && ends (rest.dropWhile Text.isDecimalDigit)
    | rest => !whole.isEmpty && ends rest
  | _ => false

/-- Whether a name is a long one. -/
def isLong (name : List Char) : Bool :=
  match name with
  | '-' :: '-' :: _ => true
  | _ => false

/-- The options that a word can mean which is none of the names: those whose long name begins with
it, or the one whose letter it begins with. -/
def candidates (g : Grammar σ) (cs : List Char) : List (String × Word σ) :=
  if isLong cs then
    let (start, argument) := splitEquals cs
    (g.names.filter fun n => start.isPrefixOf n.1.toList).map fun (name, o) =>
      (name, .option o name argument)
  else
    g.names.filterMap fun (name, o) =>
      if name.toList = cs.take 2 then some (name, .option o name (some (cs.drop 2)))
      else if cs.isPrefixOf name.toList then some (name, .option o name none)
      else none

/-- How a word is understood that is not the divider. -/
def Word.ofText (g : Grammar σ) (text : String) : Except Stop (Word σ) :=
  let cs := text.toList
  if cs.head? ≠ some '-' then .ok (.plain text)
  else
    match g.find? text with
    | some o => .ok (.option o text none)
    | none =>
      if cs.length = 1 then .ok (.plain text)
      else
        let (start, argument) := splitEquals cs
        let name := String.ofList start
        match argument, g.find? name with
        | some a, some o => .ok (.option o name (some a))
        | _, _ =>
          match candidates g cs with
          | [] =>
            if isNegativeNumber cs || cs.contains ' ' then .ok (.plain text)
            else .ok (.unknown text)
          | [(_, word)] => .ok word
          | several =>
            g.refuse ("ambiguous option: " ++ text ++ " could match " ++
              ", ".intercalate (several.map Prod.fst))

/-- The words of a command line. -/
def words (g : Grammar σ) : List String → Except Stop (List (Word σ))
  | [] => .ok []
  | text :: texts =>
    if text = "--" then .ok (.divider :: texts.map .plain)
    else do
      let word ← Word.ofText g text
      return word :: (← words g texts)

end ToolchainChoice.CommandLine
