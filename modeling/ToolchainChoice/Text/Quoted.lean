import ToolchainChoice.Number.Hex
import ToolchainChoice.Text.Printable

/-!
# Quoted display of a text

A text is shown between single quotes, or between double quotes if it holds a single quote and no
double quote. The backslash, the quote in use and the line feed, carriage return and tab are
written with a backslash; every other unprintable character is written by its code point in lower
case hexadecimal, with two, four or eight digits.
-/
namespace ToolchainChoice.Text.Quoted

open Number (hexDigits)

/-- The quotation mark under which `cs` is shown. -/
def mark (cs : List Char) : Char :=
  if cs.contains '\'' && !cs.contains '"' then '"' else '\''

/-- A character by its code point, in the shortest of the three forms that holds it. -/
def codePoint (c : Char) : List Char :=
  if c.toNat < 0x100 then '\\' :: 'x' :: hexDigits 2 c.toNat
  else if c.toNat < 0x10000 then '\\' :: 'u' :: hexDigits 4 c.toNat
  else '\\' :: 'U' :: hexDigits 8 c.toNat

/-- One character of a text quoted with `quote`. -/
def escape (quote c : Char) : List Char :=
  if c = quote ∨ c = '\\' then ['\\', c]
  else if c = '\n' then ['\\', 'n']
  else if c = '\r' then ['\\', 'r']
  else if c = '\t' then ['\\', 't']
  else if isPrintable c then [c]
  else codePoint c

def encode (cs : List Char) : List Char :=
  mark cs :: cs.flatMap (escape (mark cs)) ++ [mark cs]

end ToolchainChoice.Text.Quoted

namespace ToolchainChoice.Text

/-- A text as it is shown inside a message about its exact spelling. -/
def quoted (text : String) : String := String.ofList (Quoted.encode text.toList)

end ToolchainChoice.Text
