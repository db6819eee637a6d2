import ToolchainChoice.Text.Quoted

/-!
# Texts with halves of characters

A character beyond the first 65536 has two halves, each with a code of its own. An escape in a
document names one code, so it can name a half whose other half is missing, and a text that can
hold such halves is a list of symbols. Nothing is replaced in it and nothing is put together: that
is done only where a text leaves the program. A reader of JSON makes one character of a high half
and the low half after it, the standard error shows a half by its code, and the system is given
octets, which are those of UTF-8 for a character and one octet for each of a few halves; the other
halves have none.
-/
namespace ToolchainChoice.Text

/-- One half of a character, by its code. -/
structure Half where
  code : Nat
  isHalf : 0xD800 ≤ code ∧ code ≤ 0xDFFF
  deriving DecidableEq, Repr

inductive Symbol where
  | char (c : Char)
  | half (h : Half)
  deriving DecidableEq, Repr

instance : Inhabited Symbol := ⟨.char default⟩

/-- The character that a high half and a low half make. -/
def Half.join? (high low : Half) : Option Char :=
  if high.code ≤ 0xDBFF ∧ 0xDC00 ≤ low.code then
    some (Char.ofNat (0x10000 + (high.code - 0xD800) * 0x400 + (low.code - 0xDC00)))
  else none

/-- The octet that a half stands for, if it stands for one that is no part of a text. -/
def Half.octet? (h : Half) : Option UInt8 :=
  if 0xDC80 ≤ h.code ∧ h.code ≤ 0xDCFF then some (UInt8.ofNat (h.code - 0xDC00)) else none

namespace Symbol

def char? : Symbol → Option Char
  | .char c => some c
  | .half _ => none

/-- The symbol with a code, if there is one. -/
def ofCode? (code : Nat) : Option Symbol :=
  if h : code.isValidChar then some (.char (Char.ofNatAux code h))
  else if h : 0xD800 ≤ code ∧ code ≤ 0xDFFF then some (.half ⟨code, h⟩)
  else none

/-- What stands for a half where only characters can stand. -/
def replacement : Char := '\uFFFD'

/-- The characters of a text one by one, so that halves stay apart. -/
def separate (symbols : List Symbol) : List Char :=
  symbols.map fun s => s.char?.getD replacement

/-- A symbol of a text quoted with `quote`. -/
def quotedWith (quote : Char) : Symbol → List Char
  | .char c => Quoted.escape quote c
  | .half h => '\\' :: 'u' :: Number.hexDigits 4 h.code

/-- A text with halves as it is shown inside a message. -/
def quoted (symbols : List Symbol) : List Char :=
  let mark := Quoted.mark (symbols.filterMap char?)
  mark :: symbols.flatMap (quotedWith mark) ++ [mark]

/-- A symbol of a text on the standard error. -/
def shown : Symbol → List Char
  | .char c => [c]
  | .half h => '\\' :: 'u' :: Number.hexDigits 4 h.code

/-- The octets that a symbol is for the system. -/
def octets? : Symbol → Option (List UInt8)
  | .char c => some (String.utf8EncodeChar c)
  | .half h => h.octet?.map ([·])

theorem separate_chars (cs : List Char) : separate (cs.map .char) = cs := by
  simp [separate, Function.comp_def, char?]

end Symbol

end ToolchainChoice.Text

namespace ToolchainChoice

open Text (Symbol)

/-- A text that can hold halves of characters. -/
abbrev Symbols := List Symbol

namespace Symbols

/-- A text of whole characters. -/
def ofString (text : String) : Symbols := text.toList.map .char

instance : Coe String Symbols := ⟨ofString⟩

/-- The characters of a text that has no half in it. -/
def chars? : Symbols → Option (List Char)
  | [] => some []
  | .char c :: symbols => (chars? symbols).map (c :: ·)
  | .half _ :: _ => none

/-- The text of whole characters that a text is, if it has no half in it. -/
def text? (symbols : Symbols) : Option String := symbols.chars?.map String.ofList

/-- A text as it is written on the standard error. -/
def shown (symbols : Symbols) : String := String.ofList (symbols.flatMap Symbol.shown)

/-- A text in which every high half and the low half after it have become their character. -/
def paired : Symbols → Symbols
  | .half high :: .half low :: symbols =>
    match high.join? low with
    | some c => .char c :: paired symbols
    | none => .half high :: paired (.half low :: symbols)
  | s :: symbols => s :: paired symbols
  | [] => []

/-- The octets that a text is for the system, if there are some for all that is in it. -/
def octets? : Symbols → Option (List UInt8)
  | [] => some []
  | s :: symbols =>
    match s.octets?, octets? symbols with
    | some first, some rest => some (first ++ rest)
    | _, _ => none

variable {a b : String}

@[simp] theorem ofString_empty : ofString "" = [] := rfl

theorem ofString_ofList (cs : List Char) : ofString (String.ofList cs) = cs.map .char := by
  rw [ofString, String.toList_ofList]

@[simp] theorem ofString_append (a b : String) : ofString (a ++ b) = ofString a ++ ofString b := by
  simp [ofString]

theorem ofString_injective (h : ofString a = ofString b) : a = b := by
  have hchar : ∀ c d, Symbol.char c = .char d → c = d := fun c d => Symbol.char.inj
  exact String.toList_inj.mp ((List.map_inj_right hchar).mp h)

@[simp] theorem ofString_inj : ofString a = ofString b ↔ a = b :=
  ⟨ofString_injective, congrArg ofString⟩

@[simp] theorem chars?_chars (cs : List Char) : chars? (cs.map .char) = some cs := by
  induction cs with
  | nil => rfl
  | cons c cs ih => rw [List.map_cons, chars?, ih, Option.map_some]

@[simp] theorem text?_ofString (text : String) : text? (ofString text) = some text := by
  rw [text?, ofString, chars?_chars, Option.map_some, String.ofList_toList]

theorem eq_of_chars? {symbols : Symbols} {cs : List Char} (h : chars? symbols = some cs) :
    symbols = cs.map .char := by
  induction symbols generalizing cs with
  | nil =>
    obtain rfl := Option.some.inj h
    rfl
  | cons s symbols ih =>
    cases s with
    | half => contradiction
    | char c =>
      obtain ⟨ds, hds, rfl⟩ := Option.map_eq_some_iff.mp h
      rw [ih hds, List.map_cons]

theorem eq_of_text? {symbols : Symbols} {text : String} (h : symbols.text? = some text) :
    symbols = ofString text := by
  obtain ⟨cs, hcs, rfl⟩ := Option.map_eq_some_iff.mp h
  rw [eq_of_chars? hcs, ofString_ofList]

@[simp] theorem paired_char (c : Char) (symbols : Symbols) :
    paired (.char c :: symbols) = .char c :: paired symbols := by
  rw [paired]
  simp

/-- Whole characters are left as they are. -/
@[simp] theorem paired_ofString (text : String) : paired (ofString text) = ofString text := by
  rw [ofString]
  induction text.toList with
  | nil => rfl
  | cons c cs ih => rw [List.map_cons, paired_char, ih]

end Symbols

/-- A text that has half a character in it. -/
structure Text.Broken where
  symbols : Symbols
  text?_eq : symbols.text? = none
  deriving DecidableEq, Repr

end ToolchainChoice
