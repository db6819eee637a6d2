import ToolchainChoice.Number.Digits
import ToolchainChoice.Number.Hex
import ToolchainChoice.Yaml.Fault
import ToolchainChoice.Yaml.Character

/-!
# Anchors, tags and directives

The parts of a text that say something about a node or about the document. A tag is written in
full between angle brackets, or as a handle and a suffix; what a handle stands for is told by a
directive.
-/
namespace ToolchainChoice.Yaml

open Number (hexValue? digitsFit digitsValue)

/-- A tag as it is written. -/
structure WrittenTag where
  handle : Option String
  suffix : String
  deriving DecidableEq, Repr

inductive Directive where
  | version (major minor : Nat)
  | tag (handle standsFor : String)
  | other
  deriving DecidableEq, Repr

/-- The characters that may follow the name of an anchor or alias. -/
def endsName (cs : List Char) : Bool :=
  endsToken cs || cs.head?.any fun c => "?:,]\x7d%@`".toList.contains c

/-- The name of an anchor or alias after its mark. -/
def anchorName (cs : List Char) : Result (String × List Char) :=
  let name := cs.takeWhile isNameChar
  let rest := cs.dropWhile isNameChar
  if name.isEmpty then rejectAt rest "an anchor or alias has no name"
  else if endsName rest then .ok (String.ofList name, rest)
  else reject "the name of an anchor or alias is malformed"

/-- The characters of the suffix of a tag, apart from escapes. -/
def isTagChar (c : Char) : Bool :=
  c.isAlphanum || "-;/?:@&=+$,_.!~*'()[]".toList.contains c

/-- The octets of a run of escapes, two hexadecimal digits each, and the rest. -/
def escapedOctets : List Char → Result (List UInt8 × List Char)
  | '%' :: a :: b :: cs =>
    match hexValue? [a, b] with
    | some n => (escapedOctets cs).map fun (octets, rest) => (UInt8.ofNat n :: octets, rest)
    | none => reject "an escape in a tag lacks hexadecimal digits"
  | '%' :: cs => rejectAt cs.tail "an escape in a tag lacks hexadecimal digits"
  | cs => .ok ([], cs)

/-- The suffix of a tag, possibly empty, and the rest. Every round takes a character. -/
def tagChars (rounds : Nat) (cs : List Char) : Result (List Char × List Char) :=
  match rounds with
  | 0 => .ok ([], cs)
  | rounds + 1 =>
    match cs with
    | [] => .ok ([], [])
    | c :: rest =>
      if c = '%' then do
        let (octets, rest) ← escapedOctets cs
        match String.fromUTF8? ⟨octets.toArray⟩ with
        | none => reject "the escapes in a tag are not UTF-8"
        | some s =>
          let (more, rest) ← tagChars rounds rest
          return (s.toList ++ more, rest)
      else if isTagChar c then
        (tagChars rounds rest).map fun (more, rest) => (c :: more, rest)
      else .ok ([], cs)

/-- The suffix of a tag. -/
def tagSuffix (cs : List Char) : Result (String × List Char) :=
  if cs.head?.any fun c => isTagChar c || c == '%' then
    (tagChars cs.length cs).map fun (suffix, rest) => (String.ofList suffix, rest)
  else rejectAt cs "a tag is empty"

/-- A handle: an exclamation mark alone before a space, or two with a name between them. -/
def tagHandle : List Char → Result (String × List Char)
  | '!' :: cs =>
    if cs.head? = some ' ' then .ok ("!", cs)
    else
      match cs.dropWhile isNameChar with
      | '!' :: rest => .ok (String.ofList ('!' :: cs.takeWhile isNameChar ++ ['!']), rest)
      | rest => rejectAt rest "the handle of a tag does not end"
  | cs => rejectAt cs "a tag has no handle"

/-- Whether a second exclamation mark stands in the word. -/
def hasHandle (cs : List Char) : Bool :=
  (cs.takeWhile fun c => c != ' ' && !isBreak c).contains '!'

/-- A tag after its exclamation mark. -/
def writtenTag (cs : List Char) : Result (WrittenTag × List Char) := do
  let (tag, rest) ← match cs with
    | '<' :: cs => do
      match ← tagSuffix cs with
      | (suffix, '>' :: rest) => pure (WrittenTag.mk none suffix, rest)
      | (_, rest) => rejectAt rest "a tag does not end"
    | cs =>
      if endsToken cs then pure (WrittenTag.mk none "!", cs)
      else if hasHandle cs then do
        let (handle, rest) ← tagHandle ('!' :: cs)
        let (suffix, rest) ← tagSuffix rest
        pure (WrittenTag.mk (some handle) suffix, rest)
      else do
        let (suffix, rest) ← tagSuffix cs
        pure (WrittenTag.mk (some "!") suffix, rest)
  if endsWord rest then return (tag, rest) else reject "a tag is not followed by a space"

/-- A number of a version. -/
def versionNumber (cs : List Char) : Result (Nat × List Char) :=
  let digits := cs.takeWhile Char.isDigit
  if digits.isEmpty then rejectAt cs "a version lacks a number"
  else if digitsFit digits then .ok (digitsValue digits, cs.dropWhile Char.isDigit)
  else failWith .numberTooLong

def versionDirective (cs : List Char) : Result (Directive × List Char) := do
  match ← versionNumber (skipSpaces cs) with
  | (major, '.' :: cs) => do
    let (minor, rest) ← versionNumber cs
    if endsWord rest then return (.version major minor, rest)
    else reject "a version is malformed"
  | (_, rest) => rejectAt rest "a version is malformed"

def tagDirective (cs : List Char) : Result (Directive × List Char) := do
  let (handle, rest) ← tagHandle (skipSpaces cs)
  if rest.head? = some ' ' then
    let (standsFor, rest) ← tagSuffix (skipSpaces rest)
    if endsWord rest then return (.tag handle standsFor, rest)
    else reject "a tag directive is malformed"
  else rejectAt rest "a tag directive is malformed"

/-- A directive after its mark, and the text after its line. -/
def directive (cs : List Char) : Result (Directive × List Char) := do
  let name := cs.takeWhile isNameChar
  let rest := cs.dropWhile isNameChar
  if name.isEmpty || !endsWord rest then rejectAt rest "the name of a directive is malformed"
  else
    let (directive, rest) ←
      if name = "YAML".toList then versionDirective rest
      else if name = "TAG".toList then tagDirective rest
      else pure (.other, rest.dropWhile fun c => !isBreak c)
    match skipLineRest? rest with
    | some rest => return (directive, rest)
    | none => reject "text follows a directive"

end ToolchainChoice.Yaml
