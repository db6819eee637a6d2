import ToolchainChoice.Yaml.BlockScalar
import ToolchainChoice.Yaml.QuotedScalar
import ToolchainChoice.Yaml.Source
import ToolchainChoice.Yaml.Token

/-!
# From text to tokens

The scanner keeps the columns of the block collections that are open. A line that begins further to
the left ends those to the right of it; a key or an item further to the right begins a new one.

A key need not be marked as one: it is known for a key by the colon after it. The scanner therefore
remembers, for every flow collection that is open and for the block around them, where the last
token stands that could be such a key. A colon on the same line, and not too far away, puts the
token for a key before it. A token that can be nothing but a key must be followed by a colon.

Tokens are scanned as they are asked for, and no further than is needed to know that no key stands
before the first one. So the faults of a text are met in its order, whoever finds them.
-/
namespace ToolchainChoice.Yaml

/-- A token that may turn out to be a key. -/
structure Candidate where
  /-- How many tokens stand before it in the text. -/
  number : Nat
  /-- Whether it can be nothing but a key. -/
  required : Bool
  index : Nat
  line : Nat
  column : Nat
  deriving DecidableEq, Repr

/-- How many characters a key may have before its colon. -/
def keyLimit : Nat := 1024

structure Scanner where
  rest : List Char
  /-- More than the rounds that any scan can take. -/
  rounds : Nat := 0
  /-- The fault behind the text; there is none if it ends. -/
  fault : Option Fault := none
  index : Nat := 0
  line : Nat := 0
  column : Nat := 0
  /-- The tokens that have not been taken yet. -/
  tokens : List Token := []
  /-- How many tokens have been taken. -/
  taken : Nat := 0
  /-- Whether the text has come to its end. -/
  finished : Bool := false
  /-- How many flow collections are open. -/
  flow : Nat := 0
  /-- The column of the innermost block collection; -1 if there is none. -/
  indent : Int := -1
  /-- The columns of those around it, inside first. -/
  outer : List Int := []
  keyAllowed : Bool := true
  /-- The candidates by the number of flow collections around them. -/
  candidates : List (Nat × Candidate) := []
  deriving Repr

namespace Scanner

/-- The scanner after one character more. -/
def pass (s : Scanner) (c : Char) : Scanner :=
  if isBreak c then { s with index := s.index + 1, line := s.line + 1, column := 0 }
  else if c = byteOrderMark then { s with index := s.index + 1 }
  else { s with index := s.index + 1, column := s.column + 1 }

/-- The scanner after `n` characters more. -/
def advance (s : Scanner) (n : Nat) : Scanner :=
  { (s.rest.take n).foldl pass s with rest := s.rest.drop n }

/-- The scanner at a later place of its text. -/
def moveTo (s : Scanner) (rest : List Char) : Scanner :=
  { (s.rest.take (s.rest.length - rest.length)).foldl pass s with rest := rest }

/-- The scanner after the characters of a class that stand here. -/
def skipWhile (s : Scanner) (p : Char → Bool) : Scanner := s.advance (s.rest.takeWhile p).length

/-- The number of the next token that is scanned. -/
def count (s : Scanner) : Nat := s.taken + s.tokens.length

def push (s : Scanner) (t : Token) : Scanner := { s with tokens := s.tokens ++ [t] }

/-- Puts a token before all but the first `n` of the text. -/
def insertAt (s : Scanner) (n : Nat) (t : Token) : Scanner :=
  let n := n - s.taken
  { s with tokens := s.tokens.take n ++ t :: s.tokens.drop n }

def inFlow (s : Scanner) : Bool := s.flow != 0

/-- The scanner after blank lines and comments. A new line of the block may begin with a key. -/
def skipBlank (rounds : Nat) (s : Scanner) : Scanner :=
  match rounds with
  | 0 => s
  | rounds + 1 =>
    let s := s.skipWhile (· == ' ')
    let s := if s.rest.head? = some '#' then s.skipWhile fun c => !isBreak c else s
    if s.rest.head?.any isBreak then
      skipBlank rounds { s.advance 1 with keyAllowed := s.keyAllowed || !s.inFlow }
    else s

/-- The scanner at the next token. A mark may stand at the start of the text. -/
def toNextToken (s : Scanner) : Scanner :=
  let s := if s.index = 0 ∧ s.rest.head? = some byteOrderMark then s.advance 1 else s
  s.skipBlank s.rounds

/-- Whether a candidate can still be a key. -/
def isFresh (s : Scanner) (c : Candidate) : Bool :=
  c.line == s.line && s.index - c.index ≤ keyLimit

/-- Forgets the candidates that can no longer be keys. -/
def dropStale (s : Scanner) : Result Scanner :=
  if s.candidates.any fun c => !s.isFresh c.2 && c.2.required then
    reject "a key is not followed by a colon"
  else .ok { s with candidates := s.candidates.filter fun c => s.isFresh c.2 }

/-- Forgets the candidate of the innermost collection. -/
def dropCandidate (s : Scanner) : Result Scanner :=
  if s.candidates.any fun c => c.1 == s.flow && c.2.required then
    reject "a key is not followed by a colon"
  else .ok { s with candidates := s.candidates.filter fun c => c.1 != s.flow }

/-- Remembers that the next token may be a key. -/
def saveCandidate (s : Scanner) : Result Scanner :=
  if s.keyAllowed then do
    let required := !s.inFlow && s.indent == s.column
    let s ← s.dropCandidate
    return { s with candidates :=
      (s.flow, ⟨s.count, required, s.index, s.line, s.column⟩) :: s.candidates }
  else .ok s

/-- Ends block collections, inside first, until the innermost one is at `column` or left of it. -/
def endBlocks (s : Scanner) (column indent : Int) : List Int → Scanner
  | [] => { s with indent := indent, outer := [] }
  | next :: outer =>
    if column < indent then endBlocks (s.push .blockEnd) column next outer
    else { s with indent := indent, outer := next :: outer }

/-- Ends the block collections to the right of a column. -/
def unwind (s : Scanner) (column : Int) : Scanner :=
  if s.inFlow then s else s.endBlocks column s.indent s.outer

/-- Begins a block collection at a column, if it is right of the innermost one. The token that
begins it goes before all tokens but the first `n`. -/
def beginBlock (s : Scanner) (column n : Nat) (t : Token) : Scanner :=
  if s.indent < column then
    { s.insertAt n t with outer := s.indent :: s.outer, indent := column }
  else s

/-- Before the marks of documents and directives all block collections end. -/
def endDocument (s : Scanner) : Result Scanner := do
  let s ← (s.unwind (-1)).dropCandidate
  return { s with keyAllowed := false }

def documentMark (s : Scanner) (t : Token) : Result Scanner := do
  let s ← s.endDocument
  return (s.advance 3).push t

def flowStart (s : Scanner) (t : Token) : Result Scanner := do
  let s ← s.saveCandidate
  return { (s.advance 1).push t with flow := s.flow + 1, keyAllowed := true }

def flowEnd (s : Scanner) (t : Token) : Result Scanner :=
  if s.inFlow then do
    let s ← s.dropCandidate
    return { (s.advance 1).push t with flow := s.flow - 1, keyAllowed := false }
  else reject "a flow collection ends that has not begun"

def comma (s : Scanner) : Result Scanner := do
  let s ← s.dropCandidate
  return { (s.advance 1).push .comma with keyAllowed := true }

/-- The mark of an item of a block sequence. -/
def blockEntry (s : Scanner) : Result Scanner :=
  if !s.inFlow && !s.keyAllowed then reject "an item cannot stand here"
  else do
    let s := if s.inFlow then s else s.beginBlock s.column s.count .blockSequence
    let s ← s.dropCandidate
    return { (s.advance 1).push .entry with keyAllowed := true }

/-- The mark of a key. -/
def keyMark (s : Scanner) : Result Scanner :=
  if !s.inFlow && !s.keyAllowed then reject "a key cannot stand here"
  else do
    let s := if s.inFlow then s else s.beginBlock s.column s.count .blockMapping
    let s ← s.dropCandidate
    return { (s.advance 1).push .key with keyAllowed := !s.inFlow }

/-- The colon before a value. -/
def valueMark (s : Scanner) : Result Scanner :=
  match s.candidates.lookup s.flow with
  | some c =>
    let s := { s with candidates := s.candidates.filter fun c => c.1 != s.flow }
    let s := s.insertAt c.number .key
    let s := if s.inFlow then s else s.beginBlock c.column c.number .blockMapping
    .ok { (s.advance 1).push .value with keyAllowed := false }
  | none =>
    if !s.inFlow && !s.keyAllowed then reject "a value cannot stand here"
    else do
      let s := if s.inFlow then s else s.beginBlock s.column s.count .blockMapping
      let s ← s.dropCandidate
      return { (s.advance 1).push .value with keyAllowed := !s.inFlow }

/-- Puts a token that may be a key and is followed by none. -/
def finishToken (s : Scanner) (t : Token) (rest : List Char) : Scanner :=
  { (s.moveTo rest).push t with keyAllowed := false }

def aliasToken (s : Scanner) (cs : List Char) : Result Scanner := do
  let s ← s.saveCandidate
  let (name, rest) ← anchorName cs
  return s.finishToken (.alias name) rest

def anchorToken (s : Scanner) (cs : List Char) : Result Scanner := do
  let s ← s.saveCandidate
  let (name, rest) ← anchorName cs
  return s.finishToken (.anchor name) rest

def tagToken (s : Scanner) (cs : List Char) : Result Scanner := do
  let s ← s.saveCandidate
  let (t, rest) ← writtenTag cs
  return s.finishToken (.tag t) rest

def quotedToken (s : Scanner) (double : Bool) (cs : List Char) : Result Scanner := do
  let s ← s.saveCandidate
  let (text, rest) ← quotedScalar double cs
  return s.finishToken (.scalar text false) rest

def blockToken (s : Scanner) (folded : Bool) (cs : List Char) : Result Scanner := do
  let s ← s.dropCandidate
  let (text, rest) ← blockScalar folded s.indent cs
  return { (s.moveTo rest).push (.scalar (text.map .char) false) with keyAllowed := true }

def plainToken (s : Scanner) : Result Scanner := do
  let s ← s.saveCandidate
  let scalar := plainScalar s.inFlow (s.indent + 1) s.rounds s.rest
  return { (s.moveTo scalar.rest).push (.scalar (scalar.text.map .char) true) with
    keyAllowed := scalar.atLineEnd }

def directiveToken (s : Scanner) (cs : List Char) : Result Scanner := do
  let s ← s.endDocument
  let (d, rest) ← directive cs
  return (s.moveTo rest).push (.directive d)

/-- The characters that no plain scalar begins with, unless it is one of the first three before
something else than a gap. -/
def indicators : List Char := "-?:,[]\x7b\x7d#&*!|>'\"%@`".toList

/-- Whether a plain scalar begins with `c`, which `cs` follow. -/
def beginsPlain (flow : Bool) (c : Char) (cs : List Char) : Bool :=
  !(isGap c || indicators.contains c) ||
    (!endsToken cs && (c == '-' || (!flow && (c == '?' || c == ':'))))

/-- Scans the token that begins with `c`, which `cs` follow. -/
def token (s : Scanner) (c : Char) (cs : List Char) : Result Scanner :=
  if c = '%' ∧ s.column = 0 then s.directiveToken cs
  else if s.column = 0 ∧ isSeparatedBy '-' (c :: cs) then s.documentMark .documentStart
  else if s.column = 0 ∧ isSeparatedBy '.' (c :: cs) then s.documentMark .documentEnd
  else if c = '[' then s.flowStart .flowSequence
  else if c = '\x7b' then s.flowStart .flowMapping
  else if c = ']' then s.flowEnd .flowSequenceEnd
  else if c = '\x7d' then s.flowEnd .flowMappingEnd
  else if c = ',' then s.comma
  else if c = '-' ∧ endsToken cs then s.blockEntry
  else if c = '?' ∧ (s.inFlow ∨ endsToken cs) then s.keyMark
  else if c = ':' ∧ (s.inFlow ∨ endsToken cs) then s.valueMark
  else if c = '*' then s.aliasToken cs
  else if c = '&' then s.anchorToken cs
  else if c = '!' then s.tagToken cs
  else if c = '|' ∧ !s.inFlow then s.blockToken false cs
  else if c = '>' ∧ !s.inFlow then s.blockToken true cs
  else if c = '\'' then s.quotedToken false cs
  else if c = '"' then s.quotedToken true cs
  else if beginsPlain s.inFlow c cs then s.plainToken
  else reject "a character cannot begin a token"

/-- Scans the end of the text. -/
def finish (s : Scanner) : Result Scanner := do
  let s ← (s.unwind (-1)).dropCandidate
  return { s with keyAllowed := false, candidates := [], finished := true }

/-- Scans what comes next: a token, which others may go with, or the end of the text. -/
def next (s : Scanner) : Result Scanner := do
  let s := s.toNextToken
  match s.rest, s.fault with
  | [], some fault => .error fault
  | [], none => (← s.dropStale).finish
  | c :: cs, _ => do
    let s ← s.dropStale
    (s.unwind s.column).token c cs

/-- Scans what comes next. What reaches the end of a text meets the fault behind it. -/
def fetch (s : Scanner) : Result Scanner :=
  match s.next, s.fault with
  | .error (.unfinished _), some fault => .error fault
  | .ok t, some fault => if t.rest.isEmpty then .error fault else .ok t
  | result, _ => result

/-- Whether the first token is known: no key can turn out to stand before it. -/
def isSettled (s : Scanner) : Bool :=
  !s.tokens.isEmpty && s.candidates.all fun c => c.2.number != s.taken

/-- Scans until the first token is known, or the end. Every round takes a character. -/
def settleIn (rounds : Nat) (s : Scanner) : Result Scanner :=
  match rounds with
  | 0 => .ok s
  | rounds + 1 =>
    if s.finished then .ok s
    else do
      let s ← if s.tokens.isEmpty then pure s else s.dropStale
      if s.isSettled then return s else settleIn rounds (← s.fetch)

/-- Scans until the first token is known, or the end. -/
def settle (s : Scanner) : Result Scanner := s.settleIn s.rounds

/-- Takes the first token. -/
def take (s : Scanner) : Scanner := { s with tokens := s.tokens.tail, taken := s.taken + 1 }

/-- The scanner at the start of a document. -/
def ofSource (source : Source) : Scanner :=
  { rest := source.chars, rounds := source.chars.length + 2, fault := source.fault }

end Scanner

end ToolchainChoice.Yaml
