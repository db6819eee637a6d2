import ToolchainChoice.Decision.State
import ToolchainChoice.Proofs.Range.Membership

/-!
# What the state of an observation says

Each state stands for one answer of the range about the observed text. An observation that was not
made has a state whatever its text is. The only observations without a state are those whose text
is a version with a number that is too long.
-/
namespace ToolchainChoice

namespace Observation

/-- A version was found, and the range contains it. -/
def Within (range : SupportedRange) (o : Observation) : Prop :=
  o.found = true ∧ range.contains o.text = .ok true

def Above (range : SupportedRange) (o : Observation) : Prop :=
  o.found = true ∧ range.above o.text = .ok true

def Below (range : SupportedRange) (o : Observation) : Prop :=
  o.found = true ∧ range.below o.text = .ok true

/-- Something was found that is no version. -/
def Unparsable (o : Observation) : Prop := o.found = true ∧ Version.isValid o.text = .ok false

end Observation

namespace Decision.State

open Version (MajorMinor)

variable {range : SupportedRange} {o : Observation} {m : MajorMinor}

theorem ofMajorMinor_eq_above_iff : ofMajorMinor range m = .above ↔ range.upper < m := by
  unfold ofMajorMinor
  split
  · simp [*]
  · split <;> simp [*]

/-- What is above the range is tested for first, but cannot be below it: the bounds are in order. -/
theorem ofMajorMinor_eq_below_iff : ofMajorMinor range m = .below ↔ m < range.lower := by
  unfold ofMajorMinor
  split
  · rename_i hu
    have hl : ¬ m < range.lower := by
      have hb := range.lower_le_upper
      rw [MajorMinor.lt_def] at hu ⊢
      rw [MajorMinor.le_def] at hb
      omega
    simp [hl]
  · split <;> simp [*]

theorem ofMajorMinor_eq_within_iff :
    ofMajorMinor range m = .within ↔ range.lower ≤ m ∧ m ≤ range.upper := by
  rw [← MajorMinor.not_lt, ← MajorMinor.not_lt (b := m)]
  unfold ofMajorMinor
  split
  · simp [*]
  · split <;> simp [*]

theorem ofMajorMinor_ne_absent : ofMajorMinor range m ≠ .absent := by
  unfold ofMajorMinor
  split
  · simp
  · split <;> simp

theorem classify_of_not_found (h : o.found = false) : classify range o = .ok .absent := by
  simp [classify, h]

theorem classify_of_read (hf : o.found = true) {v : Version} (hv : Version.read o.text = .ok v) :
    classify range o = .ok (ofMajorMinor range v.majorMinor) := by
  simp [classify, hf, hv]

theorem classify_of_unparsable (h : o.Unparsable) : classify range o = .ok .below := by
  have hr := Version.isValid_eq_false_iff.mp h.2
  simp [classify, h.1, hr]

theorem classify_eq_error_iff {e : Failure} :
    classify range o = .error e ↔
      e = .numberTooLong ∧ o.found = true ∧ Version.read o.text = .error .numberTooLong := by
  unfold classify
  split
  · rename_i hf
    cases Version.read o.text with
    | ok v => simp
    | error u => cases u <;> simp [hf, eq_comm]
  · rename_i hf
    simp [hf]

/-- What an observation with a state is: not made, no version, or a version. -/
theorem classify_cases {s : State} (h : classify range o = .ok s) :
    (o.found = false ∧ s = .absent) ∨ (o.Unparsable ∧ s = .below) ∨
      (o.found = true ∧ ∃ v, Version.read o.text = .ok v ∧ s = ofMajorMinor range v.majorMinor) := by
  cases hf : o.found with
  | false =>
    rw [classify_of_not_found hf] at h
    exact .inl ⟨rfl, (Except.ok.inj h).symm⟩
  | true =>
    cases hr : Version.read o.text with
    | ok v =>
      rw [classify_of_read hf hr] at h
      exact .inr (.inr ⟨rfl, v, rfl, (Except.ok.inj h).symm⟩)
    | error u =>
      cases u with
      | malformed =>
        have hu : o.Unparsable := ⟨hf, Version.isValid_eq_false_iff.mpr hr⟩
        rw [classify_of_unparsable hu] at h
        exact .inr (.inl ⟨hu, (Except.ok.inj h).symm⟩)
      | numberTooLong =>
        have he : classify range o = .error .numberTooLong :=
          classify_eq_error_iff.mpr ⟨rfl, hf, hr⟩
        rw [he] at h
        contradiction

theorem classify_eq_absent_iff : classify range o = .ok .absent ↔ o.found = false := by
  constructor
  · intro h
    rcases classify_cases h with ⟨hf, -⟩ | ⟨-, hs⟩ | ⟨-, v, -, hs⟩
    · exact hf
    · contradiction
    · exact absurd hs.symm ofMajorMinor_ne_absent
  · exact classify_of_not_found

theorem classify_eq_within_iff : classify range o = .ok .within ↔ o.Within range := by
  constructor
  · intro h
    rcases classify_cases h with ⟨-, hs⟩ | ⟨-, hs⟩ | ⟨hf, v, hv, hs⟩
    · contradiction
    · contradiction
    · exact ⟨hf, SupportedRange.contains_eq_true_iff.mpr
        ⟨v, hv, ofMajorMinor_eq_within_iff.mp hs.symm⟩⟩
  · rintro ⟨hf, hc⟩
    obtain ⟨v, hv, hm⟩ := SupportedRange.contains_eq_true_iff.mp hc
    rw [classify_of_read hf hv, ofMajorMinor_eq_within_iff.mpr hm]

theorem classify_eq_above_iff : classify range o = .ok .above ↔ o.Above range := by
  constructor
  · intro h
    rcases classify_cases h with ⟨-, hs⟩ | ⟨-, hs⟩ | ⟨hf, v, hv, hs⟩
    · contradiction
    · contradiction
    · exact ⟨hf, SupportedRange.above_eq_true_iff.mpr
        ⟨v, hv, ofMajorMinor_eq_above_iff.mp hs.symm⟩⟩
  · rintro ⟨hf, ha⟩
    obtain ⟨v, hv, hm⟩ := SupportedRange.above_eq_true_iff.mp ha
    rw [classify_of_read hf hv, ofMajorMinor_eq_above_iff.mpr hm]

theorem classify_eq_below_iff :
    classify range o = .ok .below ↔ o.Unparsable ∨ o.Below range := by
  constructor
  · intro h
    rcases classify_cases h with ⟨-, hs⟩ | ⟨hu, -⟩ | ⟨hf, v, hv, hs⟩
    · contradiction
    · exact .inl hu
    · exact .inr ⟨hf, SupportedRange.below_eq_true_iff.mpr
        ⟨v, hv, ofMajorMinor_eq_below_iff.mp hs.symm⟩⟩
  · rintro (hu | ⟨hf, hb⟩)
    · exact classify_of_unparsable hu
    · obtain ⟨v, hv, hm⟩ := SupportedRange.below_eq_true_iff.mp hb
      rw [classify_of_read hf hv, ofMajorMinor_eq_below_iff.mpr hm]

end Decision.State

end ToolchainChoice
