import ToolchainChoice.Text.Blank
import ToolchainChoice.Version.Basic

/-!
# Reading a version

The text of a version may be surrounded by white space and may start with `go`, then again white
space, then the letter v. What remains is

    [N!] N(.N)* [pre] [post] [dev] [+local]

where the letters are ASCII letters of either case, and a pre-, post- or development release may
be set off, and its number may be set off, by one of the separators `.`, `-`, `_`. A hyphen and a
number alone also make a post-release. Each part takes as much text as it can, from left to right,
and this loses no reading: a part never has to leave text to a later one.

Reading first finds the parts as written. Only a text that is a version can then fail because one
of its numbers has too many digits.
-/
namespace ToolchainChoice.Version

/-- Why a text has no version. -/
inductive Unreadable where
  /-- The text is not the text of a version. -/
  | malformed
  /-- It is, but one of its numbers has more than `Number.digitLimit` digits. -/
  | numberTooLong
  deriving DecidableEq, Repr

namespace Written

def isSeparator (c : Char) : Bool := c == '.' || c == '-' || c == '_'

/-- Whether a text starts with a digit. -/
def startsWithDigit : List Char → Bool
  | [] => false
  | c :: _ => c.isDigit

/-- The text after one separator, if it starts with one. -/
def skipSeparator : List Char → List Char
  | [] => []
  | c :: cs => if isSeparator c then cs else c :: cs

/-- The text after `word`, if it starts with it. -/
def after? : (word text : List Char) → Option (List Char)
  | [], text => some text
  | _ :: _, [] => none
  | w :: ws, c :: cs => if w = c then after? ws cs else none

/-- The leading digits of a text, and what follows them. -/
def digits (cs : List Char) : List Char × List Char :=
  (cs.takeWhile Char.isDigit, cs.dropWhile Char.isDigit)

/-- An epoch and its exclamation mark. -/
def epoch (cs : List Char) : List Char × List Char :=
  match digits cs with
  | (ds, '!' :: rest) => if ds = [] then ([], cs) else (ds, rest)
  | _ => ([], cs)

/-- Runs of digits joined by single dots, where `run` holds the digits read so far of the first. -/
def release (run : List Char) : List Char → List (List Char) × List Char
  | [] => ([run], [])
  | c :: cs =>
    if c.isDigit then release (run ++ [c]) cs
    else if c = '.' ∧ startsWithDigit cs then
      let (runs, rest) := release [] cs
      (run :: runs, rest)
    else ([run], c :: cs)

/-- The spellings of the pre-release tags; a longer spelling stands before its beginning. -/
def preSpellings : List (List Char × PreTag) :=
  [("alpha".toList, .alpha), ("a".toList, .alpha), ("beta".toList, .beta), ("b".toList, .beta),
   ("preview".toList, .candidate), ("pre".toList, .candidate), ("c".toList, .candidate),
   ("rc".toList, .candidate)]

def postSpellings : List (List Char × Unit) :=
  [("post".toList, ()), ("rev".toList, ()), ("r".toList, ())]

def devSpellings : List (List Char × Unit) := [("dev".toList, ())]

/-- An optional separator, the first fitting spelling, an optional separator and optional digits:
the meaning of the spelling, the digits and the text that follows. -/
def tagged {τ : Type} (spellings : List (List Char × τ)) (cs : List Char) :
    Option (τ × List Char × List Char) :=
  spellings.findSome? fun (spelling, tag) =>
    (after? spelling (skipSeparator cs)).map fun rest =>
      (tag, digits (skipSeparator rest))

def preRelease (cs : List Char) : Option (PreTag × List Char) × List Char :=
  match tagged preSpellings cs with
  | some (tag, ds, rest) => (some (tag, ds), rest)
  | none => (none, cs)

/-- A post-release in words. -/
def postWord (cs : List Char) : Option (List Char) × List Char :=
  match tagged postSpellings cs with
  | some (_, ds, rest) => (some ds, rest)
  | none => (none, cs)

def postRelease : List Char → Option (List Char) × List Char
  | '-' :: cs =>
    if startsWithDigit cs then (some (digits cs).1, (digits cs).2) else postWord ('-' :: cs)
  | cs => postWord cs

def devRelease (cs : List Char) : Option (List Char) × List Char :=
  match tagged devSpellings cs with
  | some (_, ds, rest) => (some ds, rest)
  | none => (none, cs)

/-- A local segment of digits only is a number. -/
def segment (cs : List Char) : Segment (List Char) :=
  if cs.all Char.isDigit then .number cs else .word cs

/-- The segments of a local part that takes up the whole text, where `run` holds the characters
read so far of the first. -/
def locals (run : List Char) : List Char → Option (List (Segment (List Char)))
  | [] => if run = [] then none else some [segment run]
  | c :: cs =>
    if c.isAlphanum then locals (run ++ [c]) cs
    else if isSeparator c ∧ run ≠ [] then (locals [] cs).map (segment run :: ·)
    else none

/-- The end of a version: nothing, or a local part. -/
def ending : List Char → Option (Option (List (Segment (List Char))))
  | [] => some none
  | '+' :: cs => (locals [] cs).map some
  | _ => none

/-- A version in lower case letters, without anything around it. -/
def ofLower? (cs : List Char) : Option Written :=
  let (epochDigits, cs) := epoch cs
  if startsWithDigit cs then
    match release [] cs with
    | ([], _) => none
    | (major :: more, cs) =>
      let (pre, cs) := preRelease cs
      let (post, cs) := postRelease cs
      let (dev, cs) := devRelease cs
      (ending cs).map fun locals => ⟨epochDigits, major, more, pre, post, dev, locals⟩
  else none

/-- The text after the letter v, if it starts with it. -/
def skipV : List Char → List Char
  | 'v' :: cs => cs
  | cs => cs

/-- The text after the leading `go`, if it starts with it. -/
def skipGo (cs : List Char) : List Char := (after? ['g', 'o'] cs).getD cs

/-- The parts of a version as written, from its whole text. -/
def ofText? (cs : List Char) : Option Written :=
  ofLower? (skipV ((stripGo cs).map Char.toLower))
where
  stripGo (cs : List Char) : List Char := Text.strip (skipGo (Text.strip cs))

end Written

/-- The version that was written, unless one of its numbers is too long. -/
def ofWritten (w : Written) : Except Unreadable Version :=
  if w.numbers.all Number.digitsFit then .ok (w.map Number.digitsValue)
  else .error .numberTooLong

def ofChars (cs : List Char) : Except Unreadable Version :=
  match Written.ofText? cs with
  | none => .error .malformed
  | some w => ofWritten w

/-- The version that a text denotes. -/
def read (text : String) : Except Unreadable Version := ofChars text.toList

end ToolchainChoice.Version
