import ToolchainChoice.Proofs.Version.Texts

/-!
# Which versions a range contains

The three questions that a range answers about a text, in terms of the first two numbers of the
version that the text denotes. The bounds of a range are always contained in it: this is all that
the proofs about the recommended version use of how a range has been made.
-/
namespace ToolchainChoice.SupportedRange

open Version (MajorMinor)

variable {r : SupportedRange} {text : String}

theorem below_eq_map :
    r.below text = (Version.majorMinorOf text).map fun m => decide (m < r.lower) := by
  unfold below
  cases Version.majorMinorOf text <;> rfl

theorem above_eq_map :
    r.above text = (Version.majorMinorOf text).map fun m => decide (r.upper < m) := by
  unfold above
  cases Version.majorMinorOf text <;> rfl

/-- A range contains what is neither below nor above it. -/
theorem contains_eq_map :
    r.contains text =
      (Version.majorMinorOf text).map fun m => decide (r.lower ≤ m ∧ m ≤ r.upper) := by
  unfold contains outside
  rw [below_eq_map, above_eq_map]
  cases Version.majorMinorOf text with
  | error e => rfl
  | ok m =>
    by_cases hl : m < r.lower
    · have hn : ¬ r.lower ≤ m := MajorMinor.not_le.mpr hl
      simp [hl, hn, Except.map, bind, Except.bind, pure, Except.pure]
    · have hn : r.lower ≤ m := MajorMinor.not_lt.mp hl
      simp [hl, hn, Except.map, bind, Except.bind, pure, Except.pure, MajorMinor.not_lt,
        ← decide_not]

theorem below_eq_true_iff :
    r.below text = .ok true ↔ ∃ v, Version.read text = .ok v ∧ v.majorMinor < r.lower := by
  rw [below_eq_map, Version.map_majorMinorOf_eq_true_iff]
  simp only [decide_eq_true_eq]

theorem above_eq_true_iff :
    r.above text = .ok true ↔ ∃ v, Version.read text = .ok v ∧ r.upper < v.majorMinor := by
  rw [above_eq_map, Version.map_majorMinorOf_eq_true_iff]
  simp only [decide_eq_true_eq]

theorem contains_eq_true_iff :
    r.contains text = .ok true ↔
      ∃ v, Version.read text = .ok v ∧ r.lower ≤ v.majorMinor ∧ v.majorMinor ≤ r.upper := by
  rw [contains_eq_map, Version.map_majorMinorOf_eq_true_iff]
  simp only [decide_eq_true_eq]

/-! ## The bounds -/

theorem read_min (r : SupportedRange) : ∃ v, Version.read r.min = .ok v ∧ v.majorMinor = r.lower :=
  Version.majorMinorOf_eq_ok_iff.mp r.min_eq

theorem read_max (r : SupportedRange) : ∃ v, Version.read r.max = .ok v ∧ v.majorMinor = r.upper :=
  Version.majorMinorOf_eq_ok_iff.mp r.max_eq

theorem contains_min (r : SupportedRange) : r.contains r.min = .ok true := by
  obtain ⟨v, hv, hm⟩ := r.read_min
  refine contains_eq_true_iff.mpr ⟨v, hv, ?_, ?_⟩
  · rw [hm]; exact MajorMinor.le_refl _
  · rw [hm]; exact r.lower_le_upper

theorem contains_max (r : SupportedRange) : r.contains r.max = .ok true := by
  obtain ⟨v, hv, hm⟩ := r.read_max
  refine contains_eq_true_iff.mpr ⟨v, hv, ?_, ?_⟩
  · rw [hm]; exact r.lower_le_upper
  · rw [hm]; exact MajorMinor.le_refl _

/-- What a range contains is a version. -/
theorem exists_read_of_contains (h : r.contains text = .ok true) :
    ∃ v, Version.read text = .ok v := by
  obtain ⟨v, hv, -⟩ := contains_eq_true_iff.mp h
  exact ⟨v, hv⟩

theorem isValid_of_contains (h : r.contains text = .ok true) : Version.isValid text = .ok true :=
  Version.isValid_eq_true_iff.mpr (exists_read_of_contains h)

theorem ne_empty_of_contains (h : r.contains text = .ok true) : text ≠ "" := by
  obtain ⟨v, hv⟩ := exists_read_of_contains h
  exact Version.ne_empty_of_read hv

end ToolchainChoice.SupportedRange
