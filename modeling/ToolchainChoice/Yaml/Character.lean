/-!
# Character classes of YAML

A text is looked at after its line ends have been unified, so a line ends at a line feed, at a next
line character or at one of the two Unicode separators. The classes of what may follow a token
include the end of the text.
-/
namespace ToolchainChoice.Yaml

/-- The characters that a text may hold. -/
def isAllowed (c : Char) : Bool :=
  let n := c.toNat
  n == 0x09 || n == 0x0A || n == 0x0D || (0x20 ≤ n && n ≤ 0x7E) || n == 0x85 ||
    (0xA0 ≤ n && n ≤ 0xD7FF) || (0xE000 ≤ n && n ≤ 0xFFFD) || 0x10000 ≤ n

/-- The mark that may stand at the start of a text and takes no column. -/
def byteOrderMark : Char := '\uFEFF'

def isBreak (c : Char) : Bool := c == '\n' || c == '\x85' || c == '\u2028' || c == '\u2029'

/-- A line break as it appears in a scalar. -/
def breakText (c : Char) : Char := if c = '\x85' then '\n' else c

def isGap (c : Char) : Bool := c == ' ' || c == '\t'

/-- Whether a space, a line break or the end follows. -/
def endsWord : List Char → Bool
  | [] => true
  | c :: _ => c == ' ' || isBreak c

/-- Whether a space, a tab, a line break or the end follows. -/
def endsToken : List Char → Bool
  | [] => true
  | c :: _ => isGap c || isBreak c

/-- The characters of the names of anchors and directives. -/
def isNameChar (c : Char) : Bool := c.isAlphanum || c == '-' || c == '_'

/-- Whether the text goes on with a line that separates documents: three times `mark`. -/
def isSeparatedBy (mark : Char) : List Char → Bool
  | a :: b :: c :: rest => a == mark && b == mark && c == mark && endsToken rest
  | _ => false

def isSeparator (cs : List Char) : Bool := isSeparatedBy '-' cs || isSeparatedBy '.' cs

def skipSpaces (cs : List Char) : List Char := cs.dropWhile (· == ' ')

/-- What follows a comment, if one stands here: the end of its line. -/
def skipComment : List Char → List Char
  | '#' :: cs => cs.dropWhile fun c => !isBreak c
  | cs => cs

/-- What follows spaces and a comment up to the end of the line and that end itself, if nothing else
stands there. -/
def skipLineRest? (cs : List Char) : Option (List Char) :=
  match skipComment (skipSpaces cs) with
  | [] => some []
  | c :: cs => if isBreak c then some cs else none

end ToolchainChoice.Yaml
