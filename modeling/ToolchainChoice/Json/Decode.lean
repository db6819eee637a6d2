import ToolchainChoice.Json.Basic
import ToolchainChoice.Number.Hex

/-!
# Reading JSON

`decode?` reads a whole JSON text. Blanks may stand between any two tokens, and strings may use every
escape of the grammar. An escape by a code names a character or half of one; a high half and the low
half after it make one character, and any other half is kept. A number is kept as written; besides
those of the grammar there are words for the infinite floats and for the float that is no number.

The reader of a value is told how many values may still be nested or follow, which a count of the
characters bounds.
-/
namespace ToolchainChoice.Json

open Number (hexValue?)
open Text (Symbol)

/-- The white space of JSON. -/
def isSpace (c : Char) : Bool := c == ' ' || c == '\n' || c == '\r' || c == '\t'

def skipSpace (cs : List Char) : List Char := cs.dropWhile isSpace

/-- The character of a one-letter escape. -/
def shortEscape? (c : Char) : Option Char :=
  match c with
  | '"' => some '"'
  | '\\' => some '\\'
  | '/' => some '/'
  | 'b' => some '\x08'
  | 'f' => some '\x0c'
  | 'n' => some '\n'
  | 'r' => some '\r'
  | 't' => some '\t'
  | _ => none

/-- The rest of a string after its opening quote, symbol by symbol, and what follows it. -/
def symbolsTail : List Char → Option (Symbols × List Char)
  | '"' :: cs => some ([], cs)
  | '\\' :: 'u' :: a :: b :: c :: d :: cs =>
    match (hexValue? [a, b, c, d]).bind Symbol.ofCode? with
    | some symbol => (symbolsTail cs).map fun (s, rest) => (symbol :: s, rest)
    | none => none
  | '\\' :: c :: cs =>
    match shortEscape? c with
    | some ch => (symbolsTail cs).map fun (s, rest) => (.char ch :: s, rest)
    | none => none
  | c :: cs =>
    if c < ' ' then none else (symbolsTail cs).map fun (s, rest) => (.char c :: s, rest)
  | [] => none

/-- The rest of a string after its opening quote: its text and what follows it. -/
def stringTail (cs : List Char) : Option (Symbols × List Char) :=
  (symbolsTail cs).map fun (s, rest) => (s.paired, rest)

/-- The characters of which a number is made. -/
def isNumberChar (c : Char) : Bool :=
  c.isDigit || c == '-' || c == '+' || c == '.' || c == 'e' || c == 'E'

/-- One or more digits, and what follows them. -/
def digits? (cs : List Char) : Option (List Char) :=
  match cs with
  | c :: cs => if c.isDigit then some (cs.dropWhile Char.isDigit) else none
  | [] => none

/-- What follows the whole part of a number. -/
def whole? : List Char → Option (List Char)
  | '0' :: cs => some cs
  | cs => digits? cs

def fraction? : List Char → Option (List Char)
  | '.' :: cs => digits? cs
  | cs => some cs

def exponent? : List Char → Option (List Char)
  | c :: cs =>
    if c = 'e' ∨ c = 'E' then
      match cs with
      | '+' :: cs => digits? cs
      | '-' :: cs => digits? cs
      | cs => digits? cs
    else some (c :: cs)
  | [] => some []

/-- Whether a text is a number of the grammar. -/
def isNumber (cs : List Char) : Bool :=
  let cs := match cs with
    | '-' :: cs => cs
    | cs => cs
  (whole? cs).bind fraction? |>.bind exponent? |>.any List.isEmpty

/-- A number, or one of the words for the floats that have no digits. -/
def number? : List Char → Option (Json × List Char)
  | 'N' :: 'a' :: 'N' :: cs => some (.number "NaN", cs)
  | 'I' :: 'n' :: 'f' :: 'i' :: 'n' :: 'i' :: 't' :: 'y' :: cs => some (.number "Infinity", cs)
  | '-' :: 'I' :: 'n' :: 'f' :: 'i' :: 'n' :: 'i' :: 't' :: 'y' :: cs =>
    some (.number "-Infinity", cs)
  | cs =>
    let literal := cs.takeWhile isNumberChar
    if isNumber literal then some (.number (String.ofList literal), cs.dropWhile isNumberChar)
    else none

mutual

/-- A value at the start of a text, and what follows it. -/
def value? : (fuel : Nat) → List Char → Option (Json × List Char)
  | 0, _ => none
  | fuel + 1, cs =>
    match skipSpace cs with
    | 'n' :: 'u' :: 'l' :: 'l' :: cs => some (.null, cs)
    | 't' :: 'r' :: 'u' :: 'e' :: cs => some (.bool true, cs)
    | 'f' :: 'a' :: 'l' :: 's' :: 'e' :: cs => some (.bool false, cs)
    | '"' :: cs => (stringTail cs).map fun (s, rest) => (.string s, rest)
    | '[' :: cs =>
      match skipSpace cs with
      | ']' :: rest => some (.array [], rest)
      | cs => (items? fuel cs).map fun (items, rest) => (.array items, rest)
    | '\x7b' :: cs =>
      match skipSpace cs with
      | '\x7d' :: rest => some (.object [], rest)
      | cs => (members? fuel cs).map fun (members, rest) => (.object members, rest)
    | cs => number? cs

/-- The items of an array up to and with its closing bracket. -/
def items? : (fuel : Nat) → List Char → Option (List Json × List Char)
  | 0, _ => none
  | fuel + 1, cs =>
    match value? fuel cs with
    | none => none
    | some (item, cs) =>
      match skipSpace cs with
      | ']' :: rest => some ([item], rest)
      | ',' :: cs => (items? fuel cs).map fun (items, rest) => (item :: items, rest)
      | _ => none

/-- The members of an object up to and with its closing brace. -/
def members? : (fuel : Nat) → List Char → Option (List (Symbols × Json) × List Char)
  | 0, _ => none
  | fuel + 1, cs =>
    match skipSpace cs with
    | '"' :: cs =>
      match stringTail cs with
      | none => none
      | some (key, cs) =>
        match skipSpace cs with
        | ':' :: cs =>
          match value? fuel cs with
          | none => none
          | some (value, cs) =>
            match skipSpace cs with
            | '\x7d' :: rest => some ([(key, value)], rest)
            | ',' :: cs =>
              (members? fuel cs).map fun (members, rest) =>
                ((key, value) :: members, rest)
            | _ => none
        | _ => none
    | _ => none

end

/-- The value of a whole JSON text. -/
def decode? (text : String) : Option Json :=
  match value? (text.length + 1) text.toList with
  | some (j, rest) => if (skipSpace rest).isEmpty then some j else none
  | none => none

end ToolchainChoice.Json
