import ToolchainChoice.Number.Digits

/-!
# Numbers written in digits

The decimal digits of a number, with any number of zeros ahead of them, are a run of digits that
denotes it.
-/
namespace ToolchainChoice.Number

theorem digitsValue_eq (ds : List Char) : digitsValue ds = Nat.ofDigitChars 10 ds 0 := by
  rw [Nat.ofDigitChars_eq_foldl]
  rfl

/-- The decimal digits of a number behind `zeros` zeros. -/
def digitsBehind (zeros n : Nat) : List Char := List.replicate zeros '0' ++ Nat.toDigits 10 n

variable {zeros n : Nat}

theorem digitsBehind_zero (n : Nat) : digitsBehind 0 n = Nat.toDigits 10 n := rfl

theorem digitsBehind_ne_nil : digitsBehind zeros n ≠ [] := by
  intro h
  exact Nat.toDigits_ne_nil (List.append_eq_nil_iff.mp h).2

theorem isDigit_of_mem_digitsBehind : ∀ c ∈ digitsBehind zeros n, c.isDigit = true := by
  intro c hc
  rcases List.mem_append.mp hc with hc | hc
  · rw [List.eq_of_mem_replicate hc]
    decide
  · exact Nat.isDigit_of_mem_toDigits (by decide) (by decide) hc

theorem digitsValue_digitsBehind (zeros n : Nat) : digitsValue (digitsBehind zeros n) = n := by
  rw [digitsValue_eq, digitsBehind, Nat.ofDigitChars_append, Nat.ofDigitChars_replicate_zero,
    Nat.mul_zero, Nat.ofDigitChars_ten_toDigits]

end ToolchainChoice.Number
