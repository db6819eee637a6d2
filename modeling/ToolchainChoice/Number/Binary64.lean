import ToolchainChoice.Number.Power

/-!
# Binary floating point numbers

The numbers of the 64-bit binary interchange format, as exact values: a sign, a mantissa below
2^53 and a power of two not below 2^-1074, or one of the special values. Rounding is to nearest,
ties to an even mantissa. All arithmetic here is that of natural numbers; no machine number is
involved.
-/
namespace ToolchainChoice.Number

inductive Binary64 where
  /-- The number `mantissa * 2 ^ (exponent - 1074)`, or its negative. -/
  | finite (negative : Bool) (mantissa exponent : Nat)
  | infinite (negative : Bool)
  | nan
  deriving DecidableEq, Repr, Inhabited

/-- The nearest integer to `num / den`; of two, the even one. -/
def roundDiv (num den : Nat) : Nat :=
  let q := num / den
  let r := num % den
  if 2 * r < den then q
  else if den < 2 * r then q + 1
  else q + q % 2

theorem roundDiv_mul (n den : Nat) (h : 0 < den) : roundDiv (n * den) den = n := by
  simp [roundDiv, Nat.mul_div_cancel n h, Nat.mul_mod_left, h]

namespace Binary64

def zero : Binary64 := .finite false 0 0

/-- The least exponent at which `num / den`, counted in units of 2^-1074, stays below 2^53. -/
def exponentFor (units den : Nat) : Nat :=
  let e := units.log2 - den.log2 - 53
  if units / (den * twoTo e) < twoTo 53 then e else e + 1

/-- The number nearest to `num / den`. -/
def ofRatio (negative : Bool) (num den : Nat) : Binary64 :=
  let units := num * twoTo 1074
  let e := exponentFor units den
  let m := roundDiv units (den * twoTo e)
  let (m, e) := if m < twoTo 53 then (m, e) else (m / 2, e + 1)
  if e ≤ 2045 then .finite negative m e else .infinite negative

/-- The number nearest to `digits * 10 ^ scale`. Beyond 400 places from the point the digits do
not matter. -/
def ofDecimal (negative : Bool) (digits : Nat) (scale : Int) : Binary64 :=
  if digits = 0 then .finite negative 0 0
  else
    let places := (Nat.toDigits 10 digits).length + scale
    if places > 400 then .infinite negative
    else if places < -400 then .finite negative 0 0
    else if 0 ≤ scale then ofRatio negative (digits * tenTo scale.toNat) 1
    else ofRatio negative digits (tenTo (-scale).toNat)

def neg : Binary64 → Binary64
  | .finite s m e => .finite (!s) m e
  | .infinite s => .infinite (!s)
  | .nan => .nan

/-- A finite number as an integer count of units of 2^-1074. -/
def units : (negative : Bool) → (mantissa exponent : Nat) → Int
  | false, m, e => m * twoTo e
  | true, m, e => -(m * twoTo e)

/-- The number nearest to a count of units of 2^-1074; the sign of zero is plus. -/
def ofUnits (n : Int) : Binary64 := ofRatio (n < 0) n.natAbs (twoTo 1074)

def add : Binary64 → Binary64 → Binary64
  | .nan, _ => .nan
  | _, .nan => .nan
  | .infinite s, .infinite t => if s = t then .infinite s else .nan
  | .infinite s, _ => .infinite s
  | _, .infinite t => .infinite t
  | .finite s m e, .finite t n f => ofUnits (units s m e + units t n f)

/-- The product with a natural number, which is itself rounded first. -/
def scale (x : Binary64) (n : Nat) : Binary64 :=
  match x, ofRatio false n 1 with
  | .nan, _ => .nan
  | .infinite s, .finite _ m _ => if m = 0 then .nan else .infinite s
  | .infinite s, _ => .infinite s
  | .finite s m _, .infinite _ => if m = 0 then .nan else .infinite s
  | .finite _ _ _, .nan => .nan
  | .finite s m e, .finite _ n f =>
    ofRatio s (m * twoTo e * (n * twoTo f)) (twoTo 1074 * twoTo 1074)

def isFinite : Binary64 → Bool
  | .finite .. => true
  | _ => false

/-- Whether the number is exactly the integer `n`. -/
def isInt (x : Binary64) (n : Int) : Bool :=
  match x with
  | .finite s m e => units s m e == n * twoTo 1074
  | _ => false

/-- Equality of numbers: zero has no sign, and a NaN equals nothing. -/
def equals : Binary64 → Binary64 → Bool
  | .finite s m e, .finite t n f => units s m e == units t n f
  | .infinite s, .infinite t => s == t
  | _, _ => false

def isZero : Binary64 → Bool
  | .finite _ m _ => m == 0
  | _ => false

end Binary64

end ToolchainChoice.Number
