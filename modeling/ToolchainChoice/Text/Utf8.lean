/-!
# Where UTF-8 goes wrong

A text in UTF-8 is read octet by octet. After the first octet of a character it is known how many
octets must follow and within which bounds the next one lies, so the first octet that rules the text
out can be told. A text that ends within a character is ruled out by its end.
-/
namespace ToolchainChoice.Text.Utf8

/-- What must follow: some octets, the next of them within bounds. -/
structure Expected where
  octets : Nat := 0
  least : UInt8 := 0x80
  greatest : UInt8 := 0xBF
  deriving DecidableEq, Repr

/-- What must follow the first octet of a character. -/
def afterFirst? (o : UInt8) : Option Expected :=
  if o < 0x80 then some {}
  else if o < 0xC2 then none
  else if o < 0xE0 then some ⟨1, 0x80, 0xBF⟩
  else if o = 0xE0 then some ⟨2, 0xA0, 0xBF⟩
  else if o = 0xED then some ⟨2, 0x80, 0x9F⟩
  else if o < 0xF0 then some ⟨2, 0x80, 0xBF⟩
  else if o = 0xF0 then some ⟨3, 0x90, 0xBF⟩
  else if o < 0xF4 then some ⟨3, 0x80, 0xBF⟩
  else if o = 0xF4 then some ⟨3, 0x80, 0x8F⟩
  else none

/-- What must follow one octet more, unless it rules the text out. -/
def step? (e : Expected) (o : UInt8) : Option Expected :=
  match e.octets with
  | 0 => afterFirst? o
  | n + 1 => if e.least ≤ o ∧ o ≤ e.greatest then some { octets := n } else none

/-- The index of the octet that rules a text out, counted from `index`; that of the end if the text
ends within a character. -/
def faultFrom (e : Expected) (index : Nat) : List UInt8 → Option Nat
  | [] => if e.octets = 0 then none else some index
  | o :: os =>
    match step? e o with
    | none => some index
    | some e => faultFrom e (index + 1) os

/-- The index of the octet that rules a text out, or of its end, if it is no text in UTF-8. -/
def fault? (content : ByteArray) : Option Nat := faultFrom {} 0 content.toList

/-- The characters that the first `n` octets hold, if the only fault of these is that they end
within a character; that character is left out. -/
def charsBefore (content : ByteArray) (n : Nat) : List Char :=
  (((List.range 4).findSome? fun k =>
    String.fromUTF8? (content.extract 0 (n - k))).map String.toList).getD []

end ToolchainChoice.Text.Utf8
