import ToolchainChoice.Yaml.Character

/-!
# Plain scalars

A plain scalar is a text without quotes. It ends before a comment, before a colon that ends a key,
before a tab, in a flow collection also before its punctuation, and where the next line is not
indented enough. A line end within it is a space, or the empty lines that follow it.
-/
namespace ToolchainChoice.Yaml

/-- The punctuation of flow collections. -/
def isFlowMark (c : Char) : Bool :=
  c == ',' || c == '[' || c == ']' || c == '\x7b' || c == '\x7d'

/-- Whether a colon before `cs` ends a plain scalar. -/
def endsKey (flow : Bool) (cs : List Char) : Bool :=
  endsToken cs || (flow && cs.head?.any isFlowMark)

/-- Whether a plain scalar stops before `c`, which `cs` follow. -/
def stopsPlain (flow : Bool) (c : Char) (cs : List Char) : Bool :=
  isGap c || isBreak c || (c == ':' && endsKey flow cs) || (flow && (isFlowMark c || c == '?'))

/-- The characters of a plain scalar up to the next gap, and what follows them. -/
def plainRun (flow : Bool) : List Char → List Char × List Char
  | [] => ([], [])
  | c :: cs =>
    if stopsPlain flow c cs then ([], c :: cs)
    else
      let (run, rest) := plainRun flow cs
      (c :: run, rest)

/-- A gap in a plain scalar. -/
structure PlainGap where
  /-- What the gap is in the scalar; nothing if the scalar ends before it. -/
  text : List Char
  /-- Whether the gap holds a line end. -/
  crossed : Bool
  /-- The column after a line end. -/
  column : Nat
  rest : List Char

/-- The empty lines and the indentation after a line end: the line ends among them, the column
reached and the rest, or `none` in place of the line ends if a line separates documents. -/
def plainLines (column : Nat) : List Char → Option (List Char) × Nat × List Char
  | [] => (some [], column, [])
  | c :: cs =>
    if c = ' ' then plainLines (column + 1) cs
    else if isBreak c then
      if isSeparator cs then (none, 0, cs)
      else
        let (breaks, column, rest) := plainLines 0 cs
        (breaks.map (breakText c :: ·), column, rest)
    else (some [], column, c :: cs)

/-- The text of the line ends in a scalar that is folded: the first is a space if no other follows,
and nothing if others do, unless it is a Unicode separator. -/
def foldBreaks (first : Char) (breaks : List Char) : List Char :=
  if breakText first ≠ '\n' then first :: breaks
  else if breaks.isEmpty then [' ']
  else breaks

/-- The gap at the start of a text. -/
def plainGap (cs : List Char) : PlainGap :=
  let spaces := cs.takeWhile (· == ' ')
  match cs.dropWhile (· == ' ') with
  | [] => ⟨spaces, false, 0, []⟩
  | c :: cs =>
    if !isBreak c then ⟨spaces, false, 0, c :: cs⟩
    else if isSeparator cs then ⟨[], true, 0, cs⟩
    else
      match plainLines 0 cs with
      | (some breaks, column, rest) => ⟨foldBreaks c breaks, true, column, rest⟩
      | (none, column, rest) => ⟨[], true, column, rest⟩

/-- A scanned plain scalar. -/
structure PlainScalar where
  text : List Char
  /-- Whether a line end follows the scalar, so that the next line may begin a key. -/
  atLineEnd : Bool
  rest : List Char

/-- Scans a plain scalar whose lines are indented by `indent` at least. Every round takes a
character, so there are fewer than `rounds`. -/
def plainScalar (flow : Bool) (indent : Int) (rounds : Nat) (cs : List Char) : PlainScalar :=
  match rounds with
  | 0 => ⟨[], false, cs⟩
  | rounds + 1 =>
    let (run, rest) := plainRun flow cs
    let gap := plainGap rest
    let stop := gap.text.isEmpty || gap.rest.head? == some '#' ||
      (!flow && gap.crossed && gap.column < indent)
    if stop || (plainRun flow gap.rest).1.isEmpty then ⟨run, gap.crossed, gap.rest⟩
    else
      let more := plainScalar flow indent rounds gap.rest
      ⟨run ++ gap.text ++ more.text, more.atLineEnd, more.rest⟩

end ToolchainChoice.Yaml
