import ToolchainChoice.Json.Basic
import ToolchainChoice.Number.Hex

/-!
# JSON text

Two layouts of a JSON text: on one line, with a space after every comma and colon, and indented,
with every item and member on a line of its own. In both, a string holds printable ASCII only. The
five control characters that have a short escape are written with it; all else that is not
printable ASCII is written by its UTF-16 code units, four hexadecimal digits each. Half a character
is one such unit.
-/
namespace ToolchainChoice.Json

open Number (hexDigits)
open Text (Symbol)

/-- The UTF-16 code units of a character. -/
def codeUnits (c : Char) : List Nat :=
  if c.toNat < 0x10000 then [c.toNat]
  else [0xD800 + (c.toNat - 0x10000) / 0x400, 0xDC00 + (c.toNat - 0x10000) % 0x400]

def escapeUnit (unit : Nat) : List Char := '\\' :: 'u' :: hexDigits 4 unit

/-- One character of a string. -/
def escape (c : Char) : List Char :=
  if c = '"' then ['\\', '"']
  else if c = '\\' then ['\\', '\\']
  else if c = '\n' then ['\\', 'n']
  else if c = '\r' then ['\\', 'r']
  else if c = '\t' then ['\\', 't']
  else if c = '\x0c' then ['\\', 'f']
  else if c = '\x08' then ['\\', 'b']
  else if ' ' ≤ c ∧ c ≤ '~' then [c]
  else (codeUnits c).flatMap escapeUnit

def escapeSymbol : Symbol → List Char
  | .char c => escape c
  | .half h => escapeUnit h.code

def quote (text : Symbols) : List Char := '"' :: text.flatMap escapeSymbol ++ ['"']

mutual

/-- A value on one line. -/
def inline : Json → List Char
  | .null => "null".toList
  | .bool true => "true".toList
  | .bool false => "false".toList
  | .number literal => literal.toList
  | .string text => quote text
  | .array items => '[' :: inlineItems items ++ [']']
  | .object members => '\x7b' :: inlineMembers members ++ ['\x7d']

def inlineItems : List Json → List Char
  | [] => []
  | [item] => inline item
  | item :: items => inline item ++ ',' :: ' ' :: inlineItems items

def inlineMembers : List (Symbols × Json) → List Char
  | [] => []
  | [(key, value)] => quote key ++ ':' :: ' ' :: inline value
  | (key, value) :: members =>
    quote key ++ ':' :: ' ' :: inline value ++ ',' :: ' ' :: inlineMembers members

end

/-- A line feed and the indentation of `depth` levels, two spaces each. -/
def newline (depth : Nat) : List Char := '\n' :: List.replicate (2 * depth) ' '

mutual

/-- A value whose closing bracket stands at `depth` levels; the empty ones take no line. -/
def indented (depth : Nat) : Json → List Char
  | .null => "null".toList
  | .bool true => "true".toList
  | .bool false => "false".toList
  | .number literal => literal.toList
  | .string text => quote text
  | .array [] => ['[', ']']
  | .array items =>
    '[' :: newline (depth + 1) ++ indentedItems (depth + 1) items ++ newline depth ++ [']']
  | .object [] => ['\x7b', '\x7d']
  | .object members =>
    '\x7b' :: newline (depth + 1) ++ indentedMembers (depth + 1) members ++ newline depth ++
      ['\x7d']

def indentedItems (depth : Nat) : List Json → List Char
  | [] => []
  | [item] => indented depth item
  | item :: items => indented depth item ++ ',' :: newline depth ++ indentedItems depth items

def indentedMembers (depth : Nat) : List (Symbols × Json) → List Char
  | [] => []
  | [(key, value)] => quote key ++ ':' :: ' ' :: indented depth value
  | (key, value) :: members =>
    quote key ++ ':' :: ' ' :: indented depth value ++ ',' :: newline depth ++
      indentedMembers depth members

end

/-- The text of a value on one line. -/
def encode (j : Json) : String := String.ofList (inline j)

/-- The text of a value with one item or member a line. -/
def encodeIndented (j : Json) : String := String.ofList (indented 0 j)

end ToolchainChoice.Json
