import ToolchainChoice.Text.Digit
import ToolchainChoice.Text.Word

/-!
# The banner of an installed toolchain

The text that the toolchain prints about itself holds its version behind the letters `go`: two or
three numbers with points between them, which `rc` or `beta` and a number may follow. The version
must not be part of a longer word. If what follows the second number makes no such version, the
first two numbers count alone, provided that they end there as a word.
-/
namespace ToolchainChoice.Installation

open Text (isDecimalDigit isWordAt)

/-- A run of digits at the start of a text, and what follows it. -/
def number? (cs : List Char) : Option (List Char × List Char) :=
  match cs.takeWhile isDecimalDigit with
  | [] => none
  | digits => some (digits, cs.dropWhile isDecimalDigit)

/-- A point and a number. -/
def pointNumber? : List Char → Option (List Char × List Char)
  | '.' :: cs => (number? cs).map fun (digits, rest) => ('.' :: digits, rest)
  | _ => none

/-- The mark of an unfinished version and its number. -/
def candidate? : List Char → Option (List Char × List Char)
  | 'r' :: 'c' :: cs => (number? cs).map fun (digits, rest) => ('r' :: 'c' :: digits, rest)
  | 'b' :: 'e' :: 't' :: 'a' :: cs =>
    (number? cs).map fun (digits, rest) => ('b' :: 'e' :: 't' :: 'a' :: digits, rest)
  | _ => none

/-- What was read of a version, if the word ends there. -/
def complete? (version rest : List Char) : Option (List Char) :=
  if isWordAt rest.head? then none else some version

/-- A version of which `version` is read: with the mark of an unfinished one, or as it is. -/
def finish? (version rest : List Char) : Option (List Char) :=
  ((candidate? rest).bind fun (mark, rest) => complete? (version ++ mark) rest).or
    (complete? version rest)

/-- The version that follows the letters `go`. -/
def bannerTail? (cs : List Char) : Option (List Char) := do
  let (major, rest) ← number? cs
  let (minor, rest) ← pointNumber? rest
  let version := major ++ minor
  ((pointNumber? rest).bind fun (patch, rest) => finish? (version ++ patch) rest).or
    (finish? version rest)

/-- The first version in a text that follows the character `before`. -/
def searchBanner (before : Option Char) (cs : List Char) : Option (List Char) :=
  let here := match cs with
    | 'g' :: 'o' :: rest => if isWordAt before then none else bannerTail? rest
    | _ => none
  match here with
  | some v => some v
  | none =>
    match cs with
    | [] => none
    | c :: cs => searchBanner (some c) cs

/-- The version in a banner. -/
def banner? (output : String) : Option String :=
  (searchBanner none output.toList).map String.ofList

end ToolchainChoice.Installation
