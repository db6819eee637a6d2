/-!
# Base 64

Octets written as characters, three octets by four characters. A reader skips the characters that
do not belong to the alphabet, and stops at the signs that fill up a group of four.
-/
namespace ToolchainChoice.Text.Base64

/-- The six bits that a character stands for. -/
def sextet? (c : Char) : Option Nat :=
  if 'A' ≤ c ∧ c ≤ 'Z' then some (c.toNat - 65)
  else if 'a' ≤ c ∧ c ≤ 'z' then some (c.toNat - 71)
  else if c.isDigit then some (c.toNat + 4)
  else if c = '+' then some 62
  else if c = '/' then some 63
  else none

/-- Reads on, after `held` characters of a group of which `left` are the bits not yet given out, and
after `fills` fill signs since then. The result is `none` if the last group is not complete. -/
def decodeFrom (held left fills : Nat) : List Char → Option (List UInt8)
  | [] => if held = 0 then some [] else none
  | c :: cs =>
    if c = '=' then
      if 2 ≤ held then
        if 4 ≤ held + fills + 1 then some [] else decodeFrom held left (fills + 1) cs
      else decodeFrom held left fills cs
    else
      match sextet? c with
      | none => decodeFrom held left fills cs
      | some bits =>
        match held with
        | 0 => decodeFrom 1 bits 0 cs
        | 1 => (decodeFrom 2 (bits % 16) 0 cs).map (UInt8.ofNat (left * 4 + bits / 16) :: ·)
        | 2 => (decodeFrom 3 (bits % 4) 0 cs).map (UInt8.ofNat (left * 16 + bits / 4) :: ·)
        | _ => (decodeFrom 0 0 0 cs).map (UInt8.ofNat (left * 64 + bits) :: ·)

/-- The octets that a text stands for. -/
def decode? (cs : List Char) : Option (List UInt8) := decodeFrom 0 0 0 cs

end ToolchainChoice.Text.Base64
