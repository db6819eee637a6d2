import ToolchainChoice.Proofs.Results
import ToolchainChoice.Range

/-!
# Texts that are read as versions

What is done with the text of a version is a matter of `Version.read` alone. The equivalences below
say so for each question that can be asked about one text or about two. No text is assumed to be a
version.
-/
namespace ToolchainChoice.Version

variable {text left right : String} {v w : Version}

theorem require_eq_ok_iff : require text = .ok v ↔ read text = .ok v := by
  unfold require
  cases read text with
  | ok u => simp
  | error u => cases u <;> simp

theorem isValid_eq_true_iff : isValid text = .ok true ↔ ∃ v, read text = .ok v := by
  unfold isValid
  cases read text with
  | ok u => simp
  | error u => cases u <;> simp

theorem isValid_eq_false_iff : isValid text = .ok false ↔ read text = .error .malformed := by
  unfold isValid
  cases read text with
  | ok u => simp
  | error u => cases u <;> simp

theorem majorMinorOf_eq_ok_iff {m : MajorMinor} :
    majorMinorOf text = .ok m ↔ ∃ v, read text = .ok v ∧ v.majorMinor = m := by
  unfold majorMinorOf
  rw [except_map_eq_ok_iff]
  simp only [require_eq_ok_iff]

/-- What is no version is reported as it was written. -/
theorem majorMinorOf_of_malformed (h : read text = .error .malformed) :
    majorMinorOf text = .error (.invalidVersion (Text.quoted text)) := by
  unfold majorMinorOf require
  rw [h]
  rfl

theorem majorMinorOf_of_numberTooLong (h : read text = .error .numberTooLong) :
    majorMinorOf text = .error .numberTooLong := by
  unfold majorMinorOf require
  rw [h]
  rfl

/-- A question about the first two numbers is answered yes exactly by versions that satisfy it. -/
theorem map_majorMinorOf_eq_true_iff {p : MajorMinor → Bool} :
    (majorMinorOf text).map p = .ok true ↔ ∃ v, read text = .ok v ∧ p v.majorMinor = true := by
  rw [except_map_eq_ok_iff]
  constructor
  · rintro ⟨m, hm, hp⟩
    obtain ⟨v, hv, rfl⟩ := majorMinorOf_eq_ok_iff.mp hm
    exact ⟨v, hv, hp⟩
  · rintro ⟨v, hv, hp⟩
    exact ⟨v.majorMinor, majorMinorOf_eq_ok_iff.mpr ⟨v, hv, rfl⟩, hp⟩

theorem map_majorMinorOf_of_read (h : read text = .ok v) (p : MajorMinor → Bool) :
    (majorMinorOf text).map p = .ok (p v.majorMinor) := by
  rw [majorMinorOf_eq_ok_iff.mpr ⟨v, h, rfl⟩]
  rfl

/-- Two texts compare exactly if both are versions, and then as the versions do. -/
theorem compareTexts_eq_ok_iff {order : Ordering} :
    compareTexts left right = .ok order ↔
      ∃ v w, read left = .ok v ∧ read right = .ok w ∧ compare v w = order := by
  unfold compareTexts
  simp only [except_bind_eq_ok_iff, require_eq_ok_iff, pure, Except.pure, Except.ok.injEq]
  constructor
  · rintro ⟨v, hv, w, hw, ho⟩
    exact ⟨v, w, hv, hw, ho⟩
  · rintro ⟨v, w, hv, hw, ho⟩
    exact ⟨v, hv, w, hw, ho⟩

/-- Which of two texts is asked about first makes no difference but to the words of the answer. -/
theorem compareTexts_swap {order : Ordering} (h : compareTexts left right = .ok order) :
    compareTexts right left = .ok order.swap := by
  obtain ⟨v, w, hv, hw, rfl⟩ := compareTexts_eq_ok_iff.mp h
  exact compareTexts_eq_ok_iff.mpr ⟨w, v, hw, hv, Std.OrientedOrd.eq_swap⟩

/-- A version is neither above nor below itself, however it is written. -/
theorem compareTexts_self (h : read text = .ok v) : compareTexts text text = .ok .eq :=
  compareTexts_eq_ok_iff.mpr ⟨v, v, h, h, Std.ReflCmp.compare_self⟩

/-- The empty text is no version. -/
theorem ne_empty_of_read (h : read text = .ok v) : text ≠ "" := by
  rintro rfl
  have hempty : read "" = .error .malformed := rfl
  rw [hempty] at h
  contradiction

end ToolchainChoice.Version
