import ToolchainChoice.Number.Binary64

/-!
# The shortest decimal that reads back

Among the decimals that round to a given binary number, those with the fewest digits are kept, and
of these the nearest to the number. The search looks, for one digit, two digits and so on, at the
two decimals next to the number that have so many digits. Seventeen digits always suffice.
-/
namespace ToolchainChoice.Number

/-- The decimal `digits * 10 ^ scale`. -/
structure Decimal where
  digits : Nat
  scale : Int
  deriving DecidableEq, Repr

/-- The reals that round to one binary number, in quarters of a unit of its last place, where the
number itself is `4 * mantissa`. -/
structure RoundingInterval where
  low : Nat
  high : Nat
  /-- Whether the ends belong to it. -/
  closed : Bool

def RoundingInterval.of (mantissa exponent : Nat) : RoundingInterval where
  low := if mantissa = twoTo 52 ∧ 0 < exponent then 4 * mantissa - 1 else 4 * mantissa - 2
  high := 4 * mantissa + 2
  closed := mantissa % 2 = 0

/-- Whether `num / den` lies in the interval. -/
def RoundingInterval.has (i : RoundingInterval) (num den : Nat) : Bool :=
  if i.closed then i.low * den ≤ num && num ≤ i.high * den
  else i.low * den < num && num < i.high * den

/-- The number of decimal places before the point of `num / den`, negative if the fraction starts
with zeros. -/
def placesBeforePoint (num den : Nat) : Int :=
  if den ≤ num then (Nat.toDigits 10 (num / den)).length
  else
    let zeros := ((List.range 400).find? fun k => den ≤ num * tenTo (k + 1)).getD 0
    Int.neg zeros

/-- The decimal with `count` digits that is nearest to a positive binary number, if one next to it
lies in the interval. The number is `num / den`, and a quarter of its last place `quarter / den`. -/
def nearestWith (i : RoundingInterval) (num den quarter : Nat) (places : Int) (count : Nat) :
    Option Decimal :=
  let scale := places - count
  -- one step of the grid is up / down
  let up := tenTo scale.toNat
  let down := tenTo (-scale).toNat
  let below := num * down / (den * up)
  let fits (d : Nat) := i.has (d * up * den) (quarter * down)
  let distance (d : Nat) := (d * up * den - num * down) + (num * down - d * up * den)
  match fits below && below != 0, fits (below + 1) with
  | true, true =>
    if distance below < distance (below + 1) then some ⟨below, scale⟩
    else if distance (below + 1) < distance below then some ⟨below + 1, scale⟩
    else some ⟨below + below % 2, scale⟩
  | true, false => some ⟨below, scale⟩
  | false, true => some ⟨below + 1, scale⟩
  | false, false => none

/-- The shortest decimal of `mantissa * 2 ^ (exponent - 1074)`, which is not zero. -/
def shortest (mantissa exponent : Nat) : Decimal :=
  let num := 4 * mantissa * twoTo exponent
  let den := 4 * twoTo 1074
  let quarter := twoTo exponent
  let places := placesBeforePoint num den
  let i := RoundingInterval.of mantissa exponent
  let found := (List.range 17).findSome? fun k => nearestWith i num den quarter places (k + 1)
  found.getD ⟨0, 0⟩

end ToolchainChoice.Number
