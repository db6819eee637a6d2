import ToolchainChoice.Number.Literal
import ToolchainChoice.Number.Power
import ToolchainChoice.Text.Base64
import ToolchainChoice.Text.Blank
import ToolchainChoice.Text.Digit
import ToolchainChoice.Value.Basic
import ToolchainChoice.Yaml.Fault
import ToolchainChoice.Yaml.Tag

/-!
# The values of scalars

A tag that was found from the form of a plain scalar always fits, though the value may not exist.
A tag that was written may be that of a quite different text; integers and floats are then read more
freely than their forms say, with blanks around them and digits of any script.
-/
namespace ToolchainChoice.Yaml

open Number (Binary64 Literal digitsFit splitSign signed)
open Calendar (Date Moment)

def withoutUnderscores (cs : List Char) : List Char := cs.filter (· != '_')

def toLower (cs : List Char) : List Char := cs.map Char.toLower

/-- The blanks that may surround a number. The information separators are not among them. -/
def isNumberBlank (c : Char) : Bool := Text.isBlank c && !(0x1C ≤ c.toNat && c.toNat ≤ 0x1F)

/-- A number with the digits of ASCII and without blanks around it. -/
def numberText (cs : List Char) : List Char :=
  let cs := (cs.dropWhile isNumberBlank).reverse.dropWhile isNumberBlank
  cs.reverse.map Text.toAsciiDigit

/-- The parts of a text between colons. -/
def splitColons (cs : List Char) : List (List Char) :=
  cs.foldr
    (fun c parts => if c = ':' then [] :: parts else
      match parts with
      | [] => [[c]]
      | part :: parts => (c :: part) :: parts)
    [[]]

/-- The value of a digit in a base up to 16. -/
def digitIn? (base : Nat) (c : Char) : Option Nat :=
  let n :=
    if c.isDigit then c.toNat - 48
    else if 'a' ≤ c ∧ c ≤ 'f' then c.toNat - 87
    else if 'A' ≤ c ∧ c ≤ 'F' then c.toNat - 55
    else base
  if n < base then some n else none

def valueIn? (base : Nat) (cs : List Char) : Option Nat :=
  cs.foldl (fun n c => n.bind fun n => (digitIn? base c).map (base * n + ·)) (some 0)

/-- Without the letter that tells a base. -/
def dropBase (base : Nat) : List Char → List Char
  | '0' :: letter :: cs =>
    let letters := if base = 2 then ['b', 'B'] else if base = 8 then ['o', 'O'] else
      if base = 16 then ['x', 'X'] else []
    if letters.contains letter then cs else '0' :: letter :: cs
  | cs => cs

/-- An integer in a base. Only in base ten is the number of digits limited. -/
def integerIn (base : Nat) (cs : List Char) : Result Int :=
  let (negative, cs) := splitSign (numberText cs)
  let digits := dropBase base cs
  if digits.isEmpty then failWith .notANumber
  else
    match valueIn? base digits with
    | none => failWith .notANumber
    | some n => if base ≠ 10 || digitsFit digits then .ok (signed negative n)
      else failWith .numberTooLong

/-- The number of parts in base sixty. -/
def sexagesimal (parts : List Int) : Int := parts.foldl (fun n part => 60 * n + part) 0

/-- The value of a text with the tag of integers. -/
def intValue (cs : List Char) : Result Int :=
  let (negative, cs) := splitSign (withoutUnderscores cs)
  let sign (n : Int) : Int := if negative then -n else n
  match cs with
  | [] => failWith .emptyNumber
  | ['0'] => .ok 0
  | '0' :: 'b' :: cs => (integerIn 2 cs).map sign
  | '0' :: 'x' :: cs => (integerIn 16 cs).map sign
  | '0' :: _ => (integerIn 8 cs).map sign
  | cs =>
    if cs.contains ':' then ((splitColons cs).mapM (integerIn 10)).map fun ns => sign (sexagesimal ns)
    else (integerIn 10 cs).map sign

/-- A float by itself. -/
def decimalValue (cs : List Char) : Result Binary64 :=
  let (negative, cs) := splitSign (numberText cs)
  if cs = "inf".toList ∨ cs = "infinity".toList then .ok (.infinite negative)
  else if cs = "nan".toList then .ok .nan
  else
    match Literal.ofChars? cs with
    | some d => .ok (.ofLiteral negative d)
    | none => failWith .notANumber

/-- The float of parts in base sixty, the last part first; the first of them counts `base`. -/
def sexagesimalFloat (base : Nat) (sum : Binary64) : List Binary64 → Result Binary64
  | [] => .ok sum
  | part :: parts =>
    if (Binary64.ofRatio false base 1).isFinite then
      sexagesimalFloat (60 * base) (sum.add (part.scale base)) parts
    else failWith .numberTooLarge

/-- The value of a text with the tag of floats. The float that is no number is one and the same
under its own name, and a new one, told apart by `which`, however else it comes about. -/
def floatValue (which : Nat) (cs : List Char) : Result Value :=
  let cs := toLower (withoutUnderscores cs)
  let (negative, rest) := splitSign cs
  let signed (x : Binary64) : Value := .ofFloat which (if negative then x.neg else x)
  if cs.isEmpty then failWith .emptyNumber
  else if rest = ".inf".toList then .ok (.float (.infinite negative))
  else if rest = ".nan".toList then .ok (.nan 0)
  else if rest.contains ':' then do
    let parts ← (splitColons rest).mapM decimalValue
    return signed (← sexagesimalFloat 1 .zero parts.reverse)
  else (decimalValue rest).map signed

/-- The value of a text with the tag of truth values. -/
def boolValue (cs : List Char) : Result Bool :=
  let cs := toLower cs
  if ["yes", "true", "on"].any (·.toList == cs) then .ok true
  else if ["no", "false", "off"].any (·.toList == cs) then .ok false
  else failWith .notATruthValue

/-- The microseconds that the digits of a fraction say; digits beyond the sixth are dropped. -/
def microseconds (fraction : List Char) : Nat :=
  let digits := fraction.take 6
  Number.digitsValue digits * Number.tenTo (6 - digits.length)

def natOf (cs : List Char) : Nat := Number.digitsValue cs

def zoneMinutes : Option (Bool × List Char × List Char) → Int
  | none => 0
  | some (west, hours, minutes) => signed west (60 * natOf hours + natOf minutes)

/-- The value of a text with the tag of time stamps. -/
def stampValue (cs : List Char) : Result Value :=
  match readStamp? cs with
  | none => failWith .notATimeStamp
  | some s =>
    let value? : Option Value := match s.time with
      | none => (Date.ofNumbers? (natOf s.year) (natOf s.month) (natOf s.day)).map .date
      | some (hour, minute, second, fraction) =>
        (Moment.ofNumbers? (natOf s.year) (natOf s.month) (natOf s.day) (natOf hour) (natOf minute)
          (natOf second) (microseconds fraction) (s.zone.map zoneMinutes)).map .moment
    match value? with
    | some v => .ok v
    | none => failWith .noSuchMoment

/-- The value of a text with the tag of octets. -/
def binaryValue (cs : List Char) : Result Value :=
  if cs.all fun c => c.toNat < 128 then
    match Text.Base64.decode? cs with
    | some octets => .ok (.bytes octets)
    | none => reject "octets are not written in base 64"
  else reject "octets are not written in ASCII"

/-- The value of a text with a tag of scalars; `which` tells apart a float that is no number. -/
def scalarValue (which : Nat) (tag : Tag) (text : List Text.Symbol) : Result Value :=
  let cs := Text.Symbol.separate text
  match tag with
  | .null => .ok .null
  | .bool => (boolValue cs).map .bool
  | .int => (intValue cs).map .int
  | .float => floatValue which cs
  | .binary => binaryValue cs
  | .timestamp => stampValue cs
  | .text => .ok (.ofSymbols text)
  | _ => reject "a scalar has a tag that it cannot have"

end ToolchainChoice.Yaml
