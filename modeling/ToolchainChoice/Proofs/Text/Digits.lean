import ToolchainChoice.Text.Blank
import ToolchainChoice.Text.Digit
import ToolchainChoice.Text.Word

/-!
# Decimal digits among the characters

Of the decimal digits of all scripts only the ten ASCII digits are ASCII characters. All of them are word
characters and none is white space, which in turn has no word characters.
-/
namespace ToolchainChoice.Text

/-- Ranges that lie apart have no character in common. -/
theorem CodePoints.has_eq_false_of_apart {a b : CodePoints} {c : Char}
    (h : ∀ r ∈ a, ∀ s ∈ b, r.2 < s.1 ∨ s.2 < r.1) (hc : a.has c = true) : b.has c = false := by
  obtain ⟨r, hr, hl, hu⟩ := has_iff.mp hc
  refine Bool.eq_false_iff.mpr fun hb => ?_
  obtain ⟨s, hs, hl', hu'⟩ := has_iff.mp hb
  have hapart := h r hr s hs
  omega

theorem isBlank_of_isDecimalDigit {c : Char} (h : isDecimalDigit c = true) :
    isBlank c = false :=
  CodePoints.has_eq_false_of_apart (by decide) h

theorem isDigit_of_isDecimalDigit {c : Char} (h : isDecimalDigit c = true) (hc : c.toNat < 128) :
    c.isDigit = true := by
  obtain ⟨r, hr, hl, hu⟩ := CodePoints.has_iff.mp h
  have hranges : ∀ r ∈ decimalDigitRanges, r = (0x30, 0x39) ∨ 128 ≤ r.1 := by decide
  rcases hranges r hr with rfl | hhigh
  · simp only [Char.isDigit, Bool.and_eq_true, decide_eq_true_eq]
    exact ⟨UInt32.le_iff_toNat_le.mpr hl, UInt32.le_iff_toNat_le.mpr hu⟩
  · omega

/-- A set that covers the ranges of another beyond a code point has all its characters from there on. -/
theorem CodePoints.has_of_covered {a b : CodePoints} {c : Char} {n : Nat}
    (h : (a.all fun r => r.2.blt n || b.any fun s => s.1.ble r.1 && r.2.ble s.2) = true)
    (hc : n ≤ c.toNat) (ha : a.has c = true) : b.has c = true := by
  obtain ⟨r, hr, hl, hu⟩ := has_iff.mp ha
  rcases Bool.or_eq_true_iff.mp (List.all_eq_true.mp h r hr) with hlow | hcover
  · have hlow' := Nat.lt_of_lt_of_le (Nat.blt_eq.mp hlow) hc
    omega
  · obtain ⟨s, hs, hboth⟩ := List.any_eq_true.mp hcover
    obtain ⟨hl', hu'⟩ := Bool.and_eq_true_iff.mp hboth
    exact has_iff.mpr ⟨s, hs, Nat.le_trans (Nat.le_of_ble_eq_true hl') hl,
      Nat.le_trans hu (Nat.le_of_ble_eq_true hu')⟩

theorem isWord_of_isDecimalDigit {c : Char} (h : isDecimalDigit c = true) : isWord c = true := by
  unfold isWord
  split
  · rename_i hascii
    show (c.isAlpha || c.isDigit || c == '_') = true
    rw [isDigit_of_isDecimalDigit h hascii, Bool.or_true, Bool.true_or]
  · rename_i hascii
    exact CodePoints.has_of_covered (n := 128) (by decide +kernel) (by omega) h

/-- The white space characters among ASCII lie below all letters and digits. -/
theorem isWord_of_isBlank {c : Char} (h : isBlank c = true) : isWord c = false := by
  unfold isWord
  split
  · rename_i hascii
    have hranges : ∀ r ∈ blankRanges, r.2 ≤ 32 ∨ 128 ≤ r.1 := by decide
    obtain ⟨r, hr, hl, hu⟩ := CodePoints.has_iff.mp h
    have hlow : c.toNat ≤ 32 := by
      rcases hranges r hr with hle | hge
      · omega
      · omega
    have hsmall : ∀ n ∈ List.range 33, (Char.ofNat n).isAlphanum = false ∧ Char.ofNat n ≠ '_' := by
      decide
    have hc := hsmall c.toNat (List.mem_range.mpr (by omega))
    rw [Char.ofNat_toNat] at hc
    rw [hc.1, beq_eq_false_iff_ne.mpr hc.2]
    rfl
  · exact CodePoints.has_eq_false_of_apart (by decide +kernel) h

end ToolchainChoice.Text
