import ToolchainChoice.Text.Utf8

/-!
# The text of a file

A text file is UTF-8, and each of the three customary line ends is read as a line feed.

A file is read part by part if it need not be read to its end. Octets that are no UTF-8 are then
met only after the parts before them have been used. The octets come in chunks, and a part is made
of as many of them as it needs, so all that is in one chunk with a fault is lost with it.
-/
namespace ToolchainChoice.Files

open Text (Utf8.fault? Utf8.charsBefore)

/-- A text with every line end as a line feed. -/
def unifyLineEnds : List Char → List Char
  | [] => []
  | '\r' :: '\n' :: cs => '\n' :: unifyLineEnds cs
  | '\r' :: cs => '\n' :: unifyLineEnds cs
  | c :: cs => c :: unifyLineEnds cs

/-- The text of a file, if it is UTF-8. -/
def decodeText? (content : ByteArray) : Option (List Char) :=
  (String.fromUTF8? content).map fun s => unifyLineEnds s.toList

/-! ## Reading part by part -/

/-- The number of octets in a chunk. -/
def chunkSize : Nat := 8192

/-- The number of characters in a part. -/
def partSize : Nat := 4096

/-- The end of the last part before the place `n`. The first two parts are read at once. -/
def partEnd (n : Nat) : Nat := if n < 2 * partSize then 0 else n / partSize * partSize

/-- A text as it is read part by part: the characters of the parts that can be read, and whether
they are the whole text. -/
structure PartialText where
  chars : List Char
  complete : Bool
  deriving Repr

/-- A text that ends with a carriage return may go on with a line feed, so that the end of the line
is not known. -/
def withoutOpenLineEnd (cs : List Char) : List Char :=
  if cs.getLast? = some '\r' then cs.dropLast else cs

def readParts (content : ByteArray) : PartialText :=
  match Utf8.fault? content with
  | none => ⟨(decodeText? content).getD [], true⟩
  | some index =>
    let octets := if index = content.size then index else index / chunkSize * chunkSize
    let chars := unifyLineEnds (withoutOpenLineEnd (Utf8.charsBefore content octets))
    ⟨chars.take (partEnd chars.length), false⟩

end ToolchainChoice.Files
