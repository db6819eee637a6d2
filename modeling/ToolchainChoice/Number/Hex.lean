/-!
# Hexadecimal digits

Numbers in a fixed count of lower case hexadecimal digits, and reading digits of either case back.
-/
namespace ToolchainChoice.Number

/-- Exactly `width` hexadecimal digits of `n`, the lowest ones if there are more. -/
def hexDigits : (width n : Nat) → List Char
  | 0, _ => []
  | width + 1, n => hexDigits width (n / 16) ++ [Nat.digitChar (n % 16)]

/-- The value of one hexadecimal digit of either case. -/
def hexDigit? (c : Char) : Option Nat :=
  if c.isDigit then some (c.toNat - 48)
  else if 'a' ≤ c ∧ c ≤ 'f' then some (c.toNat - 87)
  else if 'A' ≤ c ∧ c ≤ 'F' then some (c.toNat - 55)
  else none

/-- The value of a text of hexadecimal digits only. -/
def hexValue? (cs : List Char) : Option Nat :=
  cs.foldlM (fun n c => (hexDigit? c).map (16 * n + ·)) 0

theorem length_hexDigits (width n : Nat) : (hexDigits width n).length = width := by
  induction width generalizing n with
  | zero => rfl
  | succ width ih => simp [hexDigits, ih]

theorem hexDigit?_digitChar {n : Nat} (h : n < 16) : hexDigit? (Nat.digitChar n) = some n := by
  have hall : ∀ k : Fin 16, hexDigit? (Nat.digitChar k.val) = some k.val := by decide
  exact hall ⟨n, h⟩

theorem hexValue?_concat (cs : List Char) (c : Char) :
    hexValue? (cs ++ [c]) =
      (hexValue? cs).bind fun n => (hexDigit? c).map (16 * n + ·) := by
  simp only [hexValue?, List.foldlM_append, List.foldlM_cons, List.foldlM_nil]
  cases h : (List.foldlM (fun n c => (hexDigit? c).map (16 * n + ·)) 0 cs : Option Nat) with
  | none => rfl
  | some n => cases hexDigit? c <;> simp

/-- A number that fits is read back from its digits. -/
theorem hexValue?_hexDigits {width n : Nat} (h : n < Nat.pow 16 width) :
    hexValue? (hexDigits width n) = some n := by
  induction width generalizing n with
  | zero => simp_all [hexDigits, hexValue?]
  | succ width ih =>
    have hs : Nat.pow 16 (width + 1) = Nat.pow 16 width * 16 := rfl
    have hq : n / 16 < Nat.pow 16 width := Nat.div_lt_of_lt_mul (by omega)
    rw [hexDigits, hexValue?_concat, ih hq, hexDigit?_digitChar (Nat.mod_lt _ (by decide))]
    simp only [Option.bind_some, Option.map_some, Option.some.injEq]
    omega

end ToolchainChoice.Number
