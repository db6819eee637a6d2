import ToolchainChoice.Yaml.Fault
import ToolchainChoice.Yaml.Character

/-!
# Block scalars

A block scalar is a header on one line and the more deeply indented lines after it. The header may
fix the indentation and says what becomes of the line ends after the last line: one of them is kept,
or all, or none. In a folded scalar, a single line end between two lines that begin with text is a
space.
-/
namespace ToolchainChoice.Yaml

/-- What becomes of the line ends after the last line. -/
inductive Chomping where
  | clip
  | keep
  | strip
  deriving DecidableEq, Repr

structure BlockHeader where
  chomping : Chomping
  /-- The indentation relative to the collection around, if it is fixed. -/
  increment : Option Nat
  deriving DecidableEq, Repr

/-- A sign that tells the chomping. -/
def chompingSign? : List Char → Option (Chomping × List Char)
  | '+' :: cs => some (.keep, cs)
  | '-' :: cs => some (.strip, cs)
  | _ => none

/-- A digit that fixes the indentation; it is not zero. -/
def incrementDigit? : List Char → Result (Option Nat × List Char)
  | c :: cs =>
    if c = '0' then reject "a block scalar is indented by nothing"
    else if c.isDigit then .ok (some (c.toNat - 48), cs)
    else .ok (none, c :: cs)
  | [] => .ok (none, [])

/-- The header of a block scalar after its mark, and the text after its line. -/
def blockHeader (cs : List Char) : Result (BlockHeader × List Char) := do
  let (header, rest) ← match chompingSign? cs with
    | some (chomping, cs) => do
      let (increment, cs) ← incrementDigit? cs
      pure (BlockHeader.mk chomping increment, cs)
    | none => do
      let (increment, cs) ← incrementDigit? cs
      match increment, chompingSign? cs with
      | some _, some (chomping, cs) => pure (⟨chomping, increment⟩, cs)
      | _, _ => pure (⟨.clip, increment⟩, cs)
  if endsWord rest then
    match skipLineRest? rest with
    | some rest => return (header, rest)
    | none => reject "text follows the header of a block scalar"
  else reject "the header of a block scalar is malformed"

/-- Line ends and indentation up to the column `indent`: the line ends, the column reached, and the
rest. -/
def blockBreaks (indent column : Nat) : List Char → List Char × Nat × List Char
  | [] => ([], column, [])
  | c :: cs =>
    if c = ' ' ∧ column < indent then blockBreaks indent (column + 1) cs
    else if isBreak c then
      let (breaks, column, rest) := blockBreaks indent 0 cs
      (breakText c :: breaks, column, rest)
    else ([], column, c :: cs)

/-- Line ends and indentation up to the first text: the line ends, the greatest column on the way,
the column reached, and the rest. -/
def blockLead (greatest column : Nat) : List Char → List Char × Nat × Nat × List Char
  | [] => ([], greatest, column, [])
  | c :: cs =>
    if c = ' ' then blockLead (max greatest (column + 1)) (column + 1) cs
    else if isBreak c then
      let (breaks, greatest, column, rest) := blockLead greatest 0 cs
      (breakText c :: breaks, greatest, column, rest)
    else ([], greatest, column, c :: cs)

/-- Whether a line begins with text. -/
def beginsWithText : List Char → Bool
  | [] => true
  | c :: _ => !isGap c

/-- The line end after a line and those of the empty lines that follow, where another line of the
scalar comes next. -/
def betweenLines (folded textAround : Bool) (lineBreak : List Char) (breaks : List Char) :
    List Char :=
  if folded && textAround && lineBreak == ['\n'] then
    if breaks.isEmpty then [' '] else breaks
  else lineBreak ++ breaks

/-- The line ends after the last line. -/
def chomp (chomping : Chomping) (lineBreak breaks : List Char) : List Char :=
  match chomping with
  | .strip => []
  | .clip => lineBreak
  | .keep => lineBreak ++ breaks

/-- The lines of a block scalar at the column `indent`, from the first one on, and the rest. Every
round takes a line. -/
def blockLines (folded : Bool) (chomping : Chomping) (indent : Nat) (rounds : Nat)
    (cs : List Char) : List Char × List Char :=
  match rounds with
  | 0 => ([], cs)
  | rounds + 1 =>
    let line := cs.takeWhile fun c => !isBreak c
    let (lineBreak, rest) := match cs.dropWhile fun c => !isBreak c with
      | [] => ([], [])
      | b :: rest => ([breakText b], rest)
    let (breaks, column, rest) := blockBreaks indent 0 rest
    if column = indent ∧ rest ≠ [] then
      let (more, last) := blockLines folded chomping indent rounds rest
      let textAround := beginsWithText cs && beginsWithText rest
      (line ++ betweenLines folded textAround lineBreak breaks ++ more, last)
    else (line ++ chomp chomping lineBreak breaks, rest)

/-- A block scalar after its mark, in a collection at the column `parent`: its text and the rest. -/
def blockScalar (folded : Bool) (parent : Int) (cs : List Char) :
    Result (List Char × List Char) := do
  let (header, cs) ← blockHeader cs
  let least := max (parent + 1) 1
  let (indent, breaks, column, rest) := match header.increment with
    | some n =>
      let indent := (least + n - 1).toNat
      let (breaks, column, rest) := blockBreaks indent 0 cs
      (indent, breaks, column, rest)
    | none =>
      let (breaks, greatest, column, rest) := blockLead 0 0 cs
      (max least.toNat greatest, breaks, column, rest)
  if column = indent ∧ rest ≠ [] then
    let (text, rest) := blockLines folded header.chomping indent (cs.length + 1) rest
    return (breaks ++ text, rest)
  else return (chomp header.chomping [] breaks, rest)

end ToolchainChoice.Yaml
