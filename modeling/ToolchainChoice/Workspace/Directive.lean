import ToolchainChoice.Text.Blank

/-!
# The version directive of a manifest

A directive is the word `go`, the first thing on its line, then blanks and the version. After the
version the line ends, or a comment runs to its end; the comment may follow the version at once.
Blanks may be line ends, also those between the word and the version. The first place in the text
where such a directive stands decides.
-/
namespace ToolchainChoice.Workspace

open Text (isBlank)

def isComment : List Char → Bool
  | '/' :: '/' :: _ => true
  | _ => false

/-- What stands before the last `//` of a text that does not begin the text. -/
def beforeComment? : List Char → Option (List Char)
  | [] => none
  | c :: cs =>
    match beforeComment? cs with
    | some v => some (c :: v)
    | none => if isComment cs then some [c] else none

/-- Whether a directive can end before `rest`, which does not continue the version. -/
def endsDirective (rest : List Char) : Bool :=
  let after := rest.dropWhile isBlank
  (rest.takeWhile isBlank).contains '\n' || after.isEmpty || isComment after

/-- The version of a directive, from what follows the word `go`. -/
def directiveTail? (cs : List Char) : Option (List Char) :=
  let start := cs.dropWhile isBlank
  let token := start.takeWhile fun c => !isBlank c
  if (cs.takeWhile isBlank).isEmpty || token.isEmpty then none
  else if endsDirective (start.dropWhile fun c => !isBlank c) then some token
  else beforeComment? token

/-- The version of a directive that begins here, after blanks. -/
def directiveAt? (cs : List Char) : Option (List Char) :=
  match cs.dropWhile isBlank with
  | 'g' :: 'o' :: rest => directiveTail? rest
  | _ => none

/-- The version of the first directive in a text of which `atLineStart` tells how it begins. -/
def searchDirective (atLineStart : Bool) (cs : List Char) : Option (List Char) :=
  match if atLineStart then directiveAt? cs else none with
  | some v => some v
  | none =>
    match cs with
    | [] => none
    | c :: cs => searchDirective (c == '\n') cs

/-- The version that the directive in a text declares. -/
def directive? (content : List Char) : Option String :=
  (searchDirective true content).map String.ofList

end ToolchainChoice.Workspace
