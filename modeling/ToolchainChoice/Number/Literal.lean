import ToolchainChoice.Number.Binary64
import ToolchainChoice.Number.Digits

/-!
# Decimal literals

A decimal literal has digits, a point with more digits or none, and an exponent or none. Its number
is the nearest one there is.
-/
namespace ToolchainChoice.Number

/-- Whether a literal begins with a minus sign, and the literal without its sign. -/
def splitSign : List Char → Bool × List Char
  | '-' :: cs => (true, cs)
  | '+' :: cs => (false, cs)
  | cs => (false, cs)

def signed (negative : Bool) (n : Nat) : Int := if negative then -(n : Int) else n

/-- The parts of an unsigned literal. -/
structure Literal where
  whole : List Char
  fraction : List Char
  exponent : Int
  deriving DecidableEq, Repr

/-- The exponent that a literal ends with; no exponent counts as zero. -/
def exponent? : List Char → Option Int
  | [] => some 0
  | e :: cs =>
    let (negative, digits) := splitSign cs
    if (e = 'e' ∨ e = 'E') ∧ digits ≠ [] ∧ digits.all Char.isDigit then
      some (signed negative (digitsValue digits))
    else none

/-- Reads an unsigned literal that has a digit before or after the point. -/
def Literal.ofChars? (cs : List Char) : Option Literal :=
  let whole := cs.takeWhile Char.isDigit
  let rest := cs.dropWhile Char.isDigit
  let (fraction, rest) := match rest with
    | '.' :: cs => (cs.takeWhile Char.isDigit, cs.dropWhile Char.isDigit)
    | cs => ([], cs)
  if whole.isEmpty && fraction.isEmpty then none
  else (exponent? rest).map fun exponent => ⟨whole, fraction, exponent⟩

/-- The number nearest to a decimal, or to its negative. -/
def Binary64.ofLiteral (negative : Bool) (d : Literal) : Binary64 :=
  .ofDecimal negative (digitsValue (d.whole ++ d.fraction)) (d.exponent - d.fraction.length)

end ToolchainChoice.Number
