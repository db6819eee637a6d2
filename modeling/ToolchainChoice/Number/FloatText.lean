import ToolchainChoice.Number.Shortest

/-!
# The text of a floating point number

A number is shown by its shortest decimal. `FloatText.layout` fixes where positional writing gives
way to an exponent and how the exponent looks.
-/
namespace ToolchainChoice.Number

/-- How the digits of a decimal are laid out. -/
structure FloatLayout where
  /-- Positional writing is used while the point stands after more than this many places ... -/
  leastPoint : Int
  /-- ... and not after more than this many. -/
  greatestPoint : Int
  /-- The least number of digits of an exponent. -/
  exponentDigits : Nat

/-- A decimal is positional from 0.0001 to below 10^16 and then has a digit after the point; an
exponent has a sign and two digits or more. -/
def floatLayout : FloatLayout := ⟨-4, 16, 2⟩

/-- Digits without the zeros at their end. -/
def dropTrailingZeros (ds : List Char) : List Char :=
  (ds.reverse.dropWhile (· == '0')).reverse

def exponentText (l : FloatLayout) (e : Int) : List Char :=
  let ds := Nat.toDigits 10 e.natAbs
  'e' :: (if e < 0 then '-' else '+') ::
    List.replicate (l.exponentDigits - ds.length) '0' ++ ds

/-- Digits `ds`, not empty, with the point after `point` places. -/
def layOut (l : FloatLayout) (ds : List Char) (point : Int) : List Char :=
  if l.leastPoint < point ∧ point ≤ l.greatestPoint then
    if point ≤ 0 then '0' :: '.' :: List.replicate (-point).toNat '0' ++ ds
    else if ds.length ≤ point then
      ds ++ List.replicate (point.toNat - ds.length) '0' ++ ['.', '0']
    else ds.take point.toNat ++ '.' :: ds.drop point.toNat
  else
    match ds with
    | [] => []
    | [d] => d :: exponentText l (point - 1)
    | d :: more => d :: '.' :: more ++ exponentText l (point - 1)

def Binary64.text (x : Binary64) : List Char :=
  match x with
  | .nan => "nan".toList
  | .infinite false => "inf".toList
  | .infinite true => "-inf".toList
  | .finite negative m e =>
    let sign := if negative then ['-'] else []
    if m = 0 then sign ++ ['0', '.', '0']
    else
      let d := shortest m e
      let ds := Nat.toDigits 10 d.digits
      sign ++ layOut floatLayout (dropTrailingZeros ds) (ds.length + d.scale)

end ToolchainChoice.Number
