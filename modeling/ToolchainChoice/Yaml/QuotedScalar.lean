import ToolchainChoice.Number.Hex
import ToolchainChoice.Text.Symbol
import ToolchainChoice.Yaml.Fault
import ToolchainChoice.Yaml.PlainScalar

/-!
# Quoted scalars

In single quotes, a quote is written twice and nothing else is special; in double quotes, a
backslash begins an escape. Line ends are folded as in plain scalars, and a backslash before a line
end takes it away. A line that separates documents cannot stand in a quoted scalar. An escape may
name half a character, which is why the text of the scalar is one of symbols.
-/
namespace ToolchainChoice.Yaml

open Number (hexDigit? hexValue?)
open Text (Symbol)

/-- The characters of one-letter escapes. -/
def escapes : List (Char × Char) :=
  [('0', '\x00'), ('a', '\x07'), ('b', '\x08'), ('t', '\t'), ('\t', '\t'), ('n', '\n'),
   ('v', '\x0b'), ('f', '\x0c'), ('r', '\r'), ('e', '\x1b'), (' ', ' '), ('"', '"'),
   ('\\', '\\'), ('/', '/'), ('N', '\x85'), ('_', '\xa0'), ('L', '\u2028'), ('P', '\u2029')]

/-- How many hexadecimal digits follow the letter of an escape by code. -/
def codeLength? (c : Char) : Option Nat :=
  if c = 'x' then some 2 else if c = 'u' then some 4 else if c = 'U' then some 8 else none

/-- The symbol with a code. -/
def ofCode (code : Nat) : Result Symbol :=
  match Symbol.ofCode? code with
  | some symbol => .ok symbol
  | none => failWith (.noSuchCharacter code)

/-- The code that an escape gives in some hexadecimal digits. -/
def escapeCode (length : Nat) (cs : List Char) : Result Nat :=
  let digits := cs.take length
  let reason := "an escape lacks hexadecimal digits"
  if digits.all fun c => (hexDigit? c).isSome then
    if digits.length = length then .ok ((hexValue? digits).getD 0)
    else .error (.unfinished reason)
  else reject reason

/-- The line ends and indentation after the first line end of a quoted scalar. -/
def quotedLines (atLineStart : Bool) (cs : List Char) : Result (List Char × List Char) :=
  if atLineStart && isSeparator cs then reject "a document ends within a quoted scalar"
  else
    match cs with
    | [] => .ok ([], [])
    | c :: cs =>
      if isGap c then quotedLines false cs
      else if isBreak c then
        (quotedLines true cs).map fun (breaks, rest) => (breakText c :: breaks, rest)
      else .ok ([], c :: cs)

/-- An escape after its backslash: what it stands for, and the rest. -/
def escape (cs : List Char) : Result (List Symbol × List Char) :=
  match cs with
  | [] => .error (.unfinished "a quoted scalar does not end")
  | c :: cs =>
    match escapes.lookup c with
    | some ch => .ok ([.char ch], cs)
    | none =>
      match codeLength? c with
      | some length => do
        let symbol ← ofCode (← escapeCode length cs)
        return ([symbol], cs.drop length)
      | none =>
        if isBreak c then
          (quotedLines true cs).map fun (breaks, rest) => (breaks.map .char, rest)
        else reject "there is no such escape"

/-- A scalar after its opening quote: its text and what follows its closing quote. Every round takes
a character. -/
def quotedTail (double : Bool) (rounds : Nat) (cs : List Char) :
    Result (List Symbol × List Char) :=
  match rounds with
  | 0 => .error (.unfinished "a quoted scalar does not end")
  | rounds + 1 =>
    let go (part : List Symbol) (rest : List Char) : Result (List Symbol × List Char) :=
      (quotedTail double rounds rest).map fun (text, rest) => (part ++ text, rest)
    match cs with
    | [] => .error (.unfinished "a quoted scalar does not end")
    | c :: rest =>
      if isGap c || isBreak c then
        let gap := cs.takeWhile isGap
        match cs.dropWhile isGap with
        | [] => .error (.unfinished "a quoted scalar does not end")
        | b :: rest =>
          if isBreak b then
            match quotedLines true rest with
            | .error e => .error e
            | .ok (breaks, rest) => go ((foldBreaks b breaks).map .char) rest
          else go (gap.map .char) (b :: rest)
      else if double then
        if c = '"' then .ok ([], rest)
        else if c = '\\' then
          match escape rest with
          | .error e => .error e
          | .ok (part, rest) => go part rest
        else go [.char c] rest
      else if c = '\'' then
        match rest with
        | '\'' :: rest => go [.char '\''] rest
        | rest => .ok ([], rest)
      else go [.char c] rest

/-- The scalar after an opening quote. -/
def quotedScalar (double : Bool) (cs : List Char) : Result (List Symbol × List Char) :=
  quotedTail double (cs.length + 1) cs

end ToolchainChoice.Yaml
