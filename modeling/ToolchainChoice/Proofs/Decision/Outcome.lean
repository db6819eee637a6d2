import ToolchainChoice.Proofs.Decision.Action
import ToolchainChoice.Proofs.Version.Precedence

/-!
# The toolchain that the workspace is built with

An advice is followed by installing what it asks for, or nothing, and the workspace is then built
with what is there. That toolchain is one of the range and not lower than the declared version, as
far as the range admits the declared version at all. A declared version below the range is exceeded
as well, but only where epochs do not stand against it: the range takes no notice of them.
-/
namespace ToolchainChoice

/-- What is installed once an advice has been followed. -/
def Survey.outcome (s : Survey) (a : Advice) : Observation :=
  if a.requiresInstall then .seen a.version else s.installed

namespace Decision

variable {range : SupportedRange} {toolchain : Toolchain} {survey : Survey} {d i : State}
variable {advice : Advice}

theorem outcome_of_eq_empty (h : advice.version = "") :
    survey.outcome advice = survey.installed := by
  have hr := requiresInstall_eq_false_iff.mpr h
  simp [Survey.outcome, hr]

theorem outcome_of_ne_empty (h : advice.version ≠ "") :
    survey.outcome advice = .seen advice.version := by
  have hr := requiresInstall_iff.mpr h
  simp [Survey.outcome, hr]

/-- Either the survey is settled and what is installed stays, or what the declared version calls for
is there in the end. -/
theorem outcome_cases (h : advise range toolchain survey = .ok advice) :
    ∃ d i, State.classify range survey.declared = .ok d ∧
      State.classify range survey.installed = .ok i ∧
      ((Settled range survey d i ∧ advice.version = "" ∧
          survey.outcome advice = survey.installed) ∨
        (advice.version ≠ "" ∧ survey.outcome advice = .seen (d.target.version range survey))) := by
  obtain ⟨d, i, hd, hi, ⟨hs, hv⟩ | ⟨-, hv⟩⟩ := advise_cases h
  · exact ⟨d, i, hd, hi, .inl ⟨hs, hv, outcome_of_eq_empty hv⟩⟩
  · have hne : advice.version ≠ "" := by
      rw [hv]
      exact SupportedRange.ne_empty_of_contains (contains_target hd)
    refine ⟨d, i, hd, hi, .inr ⟨hne, ?_⟩⟩
    rw [outcome_of_ne_empty hne, hv]

/-- Unless both versions are above the range, the outcome is within it. -/
theorem outcome_within (h : advise range toolchain survey = .ok advice)
    (hb : ¬ BothAbove range survey) : (survey.outcome advice).Within range := by
  obtain ⟨d, i, hd, hi, ⟨hs, -, ho⟩ | ⟨-, ho⟩⟩ := outcome_cases h
  · rw [ho]
    rcases (settled_iff hd hi).mp hs with hh | hb'
    · exact hh.1
    · exact absurd hb' hb
  · rw [ho]
    exact ⟨rfl, contains_target hd⟩

/-- A declared version within the range is reached. -/
theorem outcome_reaches_declared (h : advise range toolchain survey = .ok advice)
    (hw : survey.declared.Within range) :
    NotAbove survey.declared.text (survey.outcome advice).text := by
  have hwithin := State.classify_eq_within_iff.mpr hw
  obtain ⟨d, i, hd, hi, ⟨hs, -, ho⟩ | ⟨-, ho⟩⟩ := outcome_cases h
  · obtain rfl := except_ok_unique hd hwithin
    rcases hs with hidle | ⟨-, reference, hr, hreaches⟩
    · cases i <;> contradiction
    · obtain rfl := Option.some.inj hr
      rw [ho]
      exact hreaches
  · obtain rfl := except_ok_unique hd hwithin
    obtain ⟨v, hv⟩ := SupportedRange.exists_read_of_contains hw.2
    rw [ho]
    exact ⟨.eq, Version.compareTexts_self hv, by decide⟩

/-- **The outcome.** Unless both versions are above the range, there is a toolchain after an advice
has been followed, and it is one that the range contains. A declared version within the range is
reached by it, all parts of both versions considered. -/
theorem outcome_within_and_sufficient (h : advise range toolchain survey = .ok advice) :
    (¬ BothAbove range survey →
      (survey.outcome advice).found = true ∧
        Version.isValid (survey.outcome advice).text = .ok true ∧
        range.contains (survey.outcome advice).text = .ok true) ∧
      (survey.declared.Within range →
        ∃ order, Version.compareTexts (survey.outcome advice).text survey.declared.text = .ok order ∧
          order ≠ .lt) := by
  refine ⟨?_, ?_⟩
  · intro hb
    obtain ⟨hf, hc⟩ := outcome_within h hb
    exact ⟨hf, SupportedRange.isValid_of_contains hc, hc⟩
  · intro hw
    obtain ⟨order, ho, hne⟩ := outcome_reaches_declared h hw
    refine ⟨order.swap, Version.compareTexts_swap ho, ?_⟩
    intro hlt
    exact hne (Ordering.swap_eq_lt.mp hlt)

/-- With 1.20rc1 declared and 1.20 installed, nothing is installed, and 1.20 is high enough. -/
theorem outcome_for_candidate :
    ¬ BothAbove .standard ⟨.seen "1.20rc1", .seen "1.20"⟩ ∧
      (Observation.seen "1.20rc1").Within .standard ∧
      ∃ advice, advise .standard {} ⟨.seen "1.20rc1", .seen "1.20"⟩ = .ok advice ∧
        (Survey.outcome ⟨.seen "1.20rc1", .seen "1.20"⟩ advice).text = "1.20" ∧
        SupportedRange.standard.contains "1.20" = .ok true ∧
        ∃ order, Version.compareTexts "1.20" "1.20rc1" = .ok order ∧ order ≠ .lt := by
  have h : advise .standard {} ⟨.seen "1.20rc1", .seen "1.20"⟩ =
      .ok (adviceOf .standard {} ⟨.seen "1.20rc1", .seen "1.20"⟩ .manifestSupportedEnvHighEnough) :=
    rfl
  have hwithin : (Observation.seen "1.20rc1").Within .standard := ⟨rfl, rfl⟩
  have hb : ¬ BothAbove .standard ⟨.seen "1.20rc1", .seen "1.20"⟩ := by
    rintro ⟨⟨-, habove⟩, -⟩
    have hnot : SupportedRange.standard.above "1.20rc1" = .ok false := rfl
    exact Bool.false_ne_true (except_ok_unique hnot habove)
  obtain ⟨hrange, hreached⟩ := outcome_within_and_sufficient h
  exact ⟨hb, hwithin, _, h, rfl, (hrange hb).2.2, hreached hwithin⟩

/-! ## Declared versions below the range -/

/-- What is said where a declared version below the range calls for nothing. -/
theorem message_of_below (h : advise range toolchain survey = .ok advice)
    (hb : survey.declared.Below range) (hv : advice.version = "") :
    advice.message = (Template.highEnough ++ Template.requestNothing).render
      (Slot.fill range toolchain survey) := by
  obtain ⟨code, hc, rfl⟩ := except_map_eq_ok_iff.mp h
  obtain ⟨d, i, hd, hi, ⟨hs, -, -⟩ | ⟨hne, -⟩⟩ := outcome_cases h
  · obtain rfl := except_ok_unique hd (State.classify_eq_below_iff.mpr (.inr hb))
    rw [resolve_of_states hd hi] at hc
    rcases hs with hidle | ⟨-, reference, hr, -⟩
    · -- of the cells of a version below the range, only the one within asks for nothing
      cases i <;> try contradiction
      obtain rfl : Code.manifestBelowEnvSupported = code := Except.ok.inj hc
      rfl
    · contradiction
  · exact absurd hv hne

/-- The outcome for a declared version below the range is a version with the higher first numbers. -/
theorem exists_lt_outcome_of_below (h : advise range toolchain survey = .ok advice)
    (hb : survey.declared.Below range) :
    ∃ v w, Version.read (survey.outcome advice).text = .ok v ∧
      Version.read survey.declared.text = .ok w ∧ w.majorMinor < v.majorMinor := by
  obtain ⟨w, hw, hlower⟩ := SupportedRange.below_eq_true_iff.mp hb.2
  have hnot : ¬ BothAbove range survey := by
    rintro ⟨habove, -⟩
    have hstates := except_ok_unique (State.classify_eq_above_iff.mpr habove)
      (State.classify_eq_below_iff.mpr (.inr hb))
    contradiction
  obtain ⟨v, hv, hbound, -⟩ := SupportedRange.contains_eq_true_iff.mp (outcome_within h hnot).2
  exact ⟨v, w, hv, hw, Version.MajorMinor.lt_of_lt_of_le hlower hbound⟩

/-- **Declared versions below the range.** The outcome is above such a version exactly if the epoch
of the version is not above that of the outcome; so it is whenever the version has no epoch. Where
nothing is installed for it, the message says that what is installed is high enough. -/
theorem outcome_above_below_iff (h : advise range toolchain survey = .ok advice)
    (hb : survey.declared.Below range) :
    (∃ v w, Version.read (survey.outcome advice).text = .ok v ∧
      Version.read survey.declared.text = .ok w ∧
      (Version.compareTexts (survey.outcome advice).text survey.declared.text = .ok .gt ↔
        w.epoch ≤ v.epoch)) ∧
      (advice.version = "" →
        advice.message = (Template.highEnough ++ Template.requestNothing).render
          (Slot.fill range toolchain survey)) := by
  refine ⟨?_, message_of_below h hb⟩
  obtain ⟨v, w, hv, hw, hlt⟩ := exists_lt_outcome_of_below h hb
  refine ⟨v, w, hv, hw, ?_⟩
  rw [← Version.compare_eq_lt_iff_of_majorMinor_lt hlt]
  constructor
  · intro hgt
    obtain ⟨w', v', hw', hv', hcompare⟩ :=
      Version.compareTexts_eq_ok_iff.mp (Version.compareTexts_swap hgt)
    obtain rfl := except_ok_unique hv hv'
    obtain rfl := except_ok_unique hw hw'
    exact hcompare
  · intro hcompare
    exact Version.compareTexts_swap
      (Version.compareTexts_eq_ok_iff.mpr ⟨w, v, hw, hv, hcompare⟩)

/-- With 1.5 declared, which is below the range, 1.15 is above it. -/
theorem outcome_above_1_5 :
    (Observation.seen "1.5").Below .standard ∧
      ∃ advice, advise .standard {} ⟨.seen "1.5", .seen "1.15"⟩ = .ok advice ∧
        (∃ v w, Version.read "1.15" = .ok v ∧ Version.read "1.5" = .ok w ∧
          (Version.compareTexts "1.15" "1.5" = .ok .gt ↔ w.epoch ≤ v.epoch)) ∧
        advice.version = "" := by
  have h : advise .standard {} ⟨.seen "1.5", .seen "1.15"⟩ =
      .ok (adviceOf .standard {} ⟨.seen "1.5", .seen "1.15"⟩ .manifestBelowEnvSupported) := rfl
  have hb : (Observation.seen "1.5").Below .standard := ⟨rfl, rfl⟩
  exact ⟨hb, _, h, (outcome_above_below_iff h hb).1, rfl⟩

/-- A version with an epoch can be below the range and yet above every version without one: 1.15 is
said to be high enough for 1!1.5, which is the higher of the two. -/
theorem outcome_below_1_5_of_epoch_1 :
    (Observation.seen "1!1.5").Below .standard ∧
      ∃ advice, advise .standard {} ⟨.seen "1!1.5", .seen "1.15"⟩ = .ok advice ∧
        advice.version = "" ∧
        (Survey.outcome ⟨.seen "1!1.5", .seen "1.15"⟩ advice).text = "1.15" ∧
        Version.compareTexts "1.15" "1!1.5" = .ok .lt :=
  ⟨⟨rfl, rfl⟩, _, rfl, rfl, rfl, rfl⟩

end Decision

end ToolchainChoice
