import ToolchainChoice.Proofs.Decision.Action
import ToolchainChoice.Proofs.Version.Preorder

/-!
# Higher versions

What becomes of the advice when the installed or the declared version is a higher one. An installed
version within the range stands against a threshold that only the declared version sets: it is kept
if it reaches the threshold, and is otherwise replaced by the threshold itself, which is above it. A
declared version with higher first two numbers never calls for a version with lower ones. Nothing is
assumed of epochs: the thresholds are compared in the order of all parts of a version, and the
versions that are called for by their first two numbers alone.
-/
namespace ToolchainChoice

open Version (MajorMinor)

namespace SupportedRange

/-- The first two numbers of the version of the range that is nearest. -/
def nearest (r : SupportedRange) (m : MajorMinor) : MajorMinor :=
  if r.upper < m then r.upper else if m < r.lower then r.lower else m

theorem nearest_within (r : SupportedRange) (m : MajorMinor) :
    r.lower ≤ r.nearest m ∧ r.nearest m ≤ r.upper := by
  have hbounds := r.lower_le_upper
  unfold nearest
  by_cases hupper : r.upper < m
  · rw [if_pos hupper]
    exact ⟨hbounds, MajorMinor.le_refl _⟩
  · rw [if_neg hupper]
    by_cases hlower : m < r.lower
    · rw [if_pos hlower]
      exact ⟨MajorMinor.le_refl _, hbounds⟩
    · rw [if_neg hlower]
      exact ⟨MajorMinor.not_lt.mp hlower, MajorMinor.not_lt.mp hupper⟩

theorem nearest_mono (r : SupportedRange) {m n : MajorMinor} (h : m ≤ n) :
    r.nearest m ≤ r.nearest n := by
  by_cases hm : r.upper < m
  · have hn : r.upper < n := MajorMinor.lt_of_lt_of_le hm h
    simp only [nearest, if_pos hm, if_pos hn]
    exact MajorMinor.le_refl _
  · by_cases hlower : m < r.lower
    · have hnearest : r.nearest m = r.lower := by simp only [nearest, if_neg hm, if_pos hlower]
      rw [hnearest]
      exact (r.nearest_within n).1
    · have hnearest : r.nearest m = m := by simp only [nearest, if_neg hm, if_neg hlower]
      rw [hnearest]
      by_cases hn : r.upper < n
      · simp only [nearest, if_pos hn]
        exact MajorMinor.not_lt.mp hm
      · have hle : r.lower ≤ n := MajorMinor.le_trans (MajorMinor.not_lt.mp hlower) h
        simp only [nearest, if_neg hn, if_neg (MajorMinor.not_lt.mpr hle)]
        exact h

end SupportedRange

namespace Decision

variable {range : SupportedRange} {toolchain : Toolchain} {survey : Survey} {d : State}
variable {advice : Advice} {declared o₁ o₂ : Observation} {a b c : String} {m : MajorMinor}

theorem NotAbove.trans (hab : NotAbove a b) (hbc : NotAbove b c) : NotAbove a c := by
  obtain ⟨ab, hab, hne⟩ := hab
  obtain ⟨bc, hbc, hne'⟩ := hbc
  obtain ⟨ac, hac, hle⟩ := Version.compareTexts_isLE_trans hab hbc
    (Ordering.isLE_iff_ne_gt.mpr hne) (Ordering.isLE_iff_ne_gt.mpr hne')
  exact ⟨ac, hac, Ordering.isLE_iff_ne_gt.mp hle⟩

/-! ## The installed version -/

/-- Where an installed version within the range does not settle the survey, what the declared version
calls for is above it. -/
theorem compareTexts_target_of_not_settled (hd : State.classify range survey.declared = .ok d)
    (hi : survey.installed.Within range) (hs : ¬ Settled range survey d .within) :
    Version.compareTexts (d.target.version range survey) survey.installed.text = .ok .gt := by
  by_cases hnone : d.reference? = none
  · exact absurd (.inl (State.idle_within_of_reference?_eq_none hnone)) hs
  · obtain ⟨reference, hr⟩ := Option.ne_none_iff_exists'.mp hnone
    obtain ⟨v, hv⟩ := read_reference hd hr
    obtain ⟨w, hw⟩ := SupportedRange.exists_read_of_contains hi.2
    have horder := Version.compareTexts_of_read hv hw
    have hgt : compare v w = .gt := Decidable.byContradiction fun hne =>
      hs (.inr ⟨rfl, reference, hr, _, horder, hne⟩)
    rw [hgt, reference_version_eq hr] at horder
    exact horder

/-- **No step back.** A version that is to be installed in place of one within the range is above it,
all parts of both considered. So such a version is neither replaced by a lower one nor by itself in
another spelling. -/
theorem advised_version_above_installed (h : advise range toolchain survey = .ok advice)
    (hi : survey.installed.Within range) (hv : advice.version ≠ "") :
    Version.compareTexts advice.version survey.installed.text = .ok .gt := by
  obtain ⟨d, i, hd, hclass, ⟨-, hempty⟩ | ⟨hs, hversion⟩⟩ := advise_cases h
  · exact absurd hempty hv
  · obtain rfl := except_ok_unique hclass (State.classify_eq_within_iff.mpr hi)
    rw [hversion]
    exact compareTexts_target_of_not_settled hd hi hs

/-- The candidate 1.20rc2 gives way to 1.20.1, which is above it within the same first two numbers. -/
theorem advised_1_20_1_above_candidate :
    (Observation.seen "1.20rc2").Within .standard ∧
      ∃ advice, advise .standard {} ⟨.seen "1.20.1", .seen "1.20rc2"⟩ = .ok advice ∧
        advice.version = "1.20.1" ∧ advice.version ≠ "" ∧
        Version.compareTexts "1.20.1" "1.20rc2" = .ok .gt := by
  have hi : (Observation.seen "1.20rc2").Within .standard := ⟨rfl, rfl⟩
  have h : advise .standard {} ⟨.seen "1.20.1", .seen "1.20rc2"⟩ =
      .ok (adviceOf .standard {} ⟨.seen "1.20.1", .seen "1.20rc2"⟩ .manifestSupportedEnvLower) := rfl
  exact ⟨hi, _, h, rfl, by decide, advised_version_above_installed h hi (by decide)⟩

/-- What an installed version reaches, every version reaches that is not below it. -/
theorem Settled.mono (hle : NotAbove o₁.text o₂.text)
    (hs : Settled range ⟨declared, o₁⟩ d .within) : Settled range ⟨declared, o₂⟩ d .within := by
  rcases hs with hidle | ⟨-, reference, hr, hreaches⟩
  · exact .inl hidle
  · have hsame : reference.version range ⟨declared, o₁⟩ = reference.version range ⟨declared, o₂⟩ := by
      cases reference <;> rfl
    have hnot : NotAbove (reference.version range ⟨declared, o₂⟩) o₁.text := by
      rw [← hsame]
      exact hreaches
    exact .inr ⟨rfl, reference, hr, hnot.trans hle⟩

/-- **Higher installed versions.** Both versions are within the range, and the second is not below the
first. Whatever the state of the declared version, there is an advice with either of them installed: if
the first is kept the second is, and if the second is replaced the first is, by the same text. A
declared version without a state leaves no advice with either, for the same reason. -/
theorem advise_mono_installed (h₁ : o₁.Within range) (h₂ : o₂.Within range)
    (hle : NotAbove o₁.text o₂.text) (declared : Observation) (toolchain : Toolchain) :
    (∀ d, State.classify range declared = .ok d →
      ∃ a₁ a₂, advise range toolchain ⟨declared, o₁⟩ = .ok a₁ ∧
        advise range toolchain ⟨declared, o₂⟩ = .ok a₂ ∧
        (a₁.requiresInstall = false → a₂.requiresInstall = false) ∧
        (a₂.requiresInstall = true → a₁.requiresInstall = true ∧ a₁.version = a₂.version)) ∧
      ∀ e, State.classify range declared = .error e →
        advise range toolchain ⟨declared, o₁⟩ = .error e ∧
          advise range toolchain ⟨declared, o₂⟩ = .error e := by
  refine ⟨?_, ?_⟩
  · intro d hd
    have hd₁ : State.classify range (Survey.mk declared o₁).declared = .ok d := hd
    have hd₂ : State.classify range (Survey.mk declared o₂).declared = .ok d := hd
    have hi₁ := State.classify_eq_within_iff.mpr h₁
    have hi₂ := State.classify_eq_within_iff.mpr h₂
    obtain ⟨a₁, ha₁, -⟩ := exists_advise_of_states toolchain hd₁ hi₁
    obtain ⟨a₂, ha₂, -⟩ := exists_advise_of_states toolchain hd₂ hi₂
    have hrequires : a₂.requiresInstall = true → a₁.requiresInstall = true := by
      rw [requiresInstall_iff_not_settled ha₁ hd hi₁, requiresInstall_iff_not_settled ha₂ hd hi₂]
      intro hs₂ hs₁
      exact hs₂ (hs₁.mono hle)
    refine ⟨a₁, a₂, ha₁, ha₂, ?_, ?_⟩
    · intro hkept
      rw [Bool.eq_false_iff]
      intro hr
      rw [hrequires hr] at hkept
      contradiction
    · intro hr
      refine ⟨hrequires hr, ?_⟩
      calc a₁.version = clamp range declared := version_eq_clamp ha₁ (hrequires hr)
        _ = a₂.version := (version_eq_clamp ha₂ hr).symm
  · intro e he
    exact ⟨advise_of_classify_error he, advise_of_classify_error he⟩

/-- With 1.22 declared, which is above the range, the threshold is 1.21: 1.21rc1 does not reach it
and 1.21.0 does. -/
theorem advise_mono_installed_across_1_21 :
    (Observation.seen "1.21rc1").Within .standard ∧ (Observation.seen "1.21.0").Within .standard ∧
      NotAbove "1.21rc1" "1.21.0" ∧
      ∃ a₁ a₂, advise .standard {} ⟨.seen "1.22", .seen "1.21rc1"⟩ = .ok a₁ ∧
        advise .standard {} ⟨.seen "1.22", .seen "1.21.0"⟩ = .ok a₂ ∧
        (a₁.requiresInstall = false → a₂.requiresInstall = false) ∧
        (a₂.requiresInstall = true → a₁.requiresInstall = true ∧ a₁.version = a₂.version) ∧
        a₁.version = "1.21" ∧ a₂.version = "" := by
  have h₁ : (Observation.seen "1.21rc1").Within .standard := ⟨rfl, rfl⟩
  have h₂ : (Observation.seen "1.21.0").Within .standard := ⟨rfl, rfl⟩
  have hle : NotAbove "1.21rc1" "1.21.0" := ⟨.lt, rfl, by decide⟩
  have hgiven₁ : advise .standard {} ⟨.seen "1.22", .seen "1.21rc1"⟩ =
      .ok (adviceOf .standard {} ⟨.seen "1.22", .seen "1.21rc1"⟩ .manifestAboveEnvBelowMax) := rfl
  have hgiven₂ : advise .standard {} ⟨.seen "1.22", .seen "1.21.0"⟩ =
      .ok (adviceOf .standard {} ⟨.seen "1.22", .seen "1.21.0"⟩ .manifestAboveEnvAtMax) := rfl
  obtain ⟨a₁, a₂, ha₁, ha₂, hkept, hsame⟩ :=
    (advise_mono_installed h₁ h₂ hle (.seen "1.22") {}).1 .above rfl
  obtain rfl := except_ok_unique hgiven₁ ha₁
  obtain rfl := except_ok_unique hgiven₂ ha₂
  exact ⟨h₁, h₂, hle, _, _, ha₁, ha₂, hkept, hsame, rfl, rfl⟩

/-! ## The declared version -/

/-- Clamping a version acts on its first two numbers alone. -/
theorem majorMinorOf_clamp (hf : declared.found = true)
    (hm : Version.majorMinorOf declared.text = .ok m) :
    Version.majorMinorOf (clamp range declared) = .ok (range.nearest m) := by
  unfold clamp SupportedRange.nearest
  rw [if_pos hf, hm]
  dsimp only
  by_cases hupper : range.upper < m
  · rw [if_pos hupper, if_pos hupper]
    exact range.max_eq
  · rw [if_neg hupper, if_neg hupper]
    by_cases hlower : m < range.lower
    · rw [if_pos hlower, if_pos hlower]
      exact range.min_eq
    · rw [if_neg hlower, if_neg hlower]
      exact hm

/-- The first two numbers of what is to be installed are those of the range nearest to the declared
ones. -/
theorem majorMinorOf_advised (h : advise range toolchain survey = .ok advice)
    (hr : advice.requiresInstall = true) (hf : survey.declared.found = true)
    (hm : Version.majorMinorOf survey.declared.text = .ok m) :
    Version.majorMinorOf advice.version = .ok (range.nearest m) := by
  rw [version_eq_clamp h hr]
  exact majorMinorOf_clamp hf hm

/-- **Higher declared versions.** Of two declared versions the first two numbers of the second are not
lower than those of the first. If something is to be installed for either, whatever is installed in
the one case and in the other, the first two numbers of what is to be installed for the second are
not lower. -/
theorem advise_mono_declared {m₁ m₂ : String} {p₁ p₂ : MajorMinor} {i₁ i₂ : Observation}
    {a₁ a₂ : Advice} (hm₁ : Version.majorMinorOf m₁ = .ok p₁) (hm₂ : Version.majorMinorOf m₂ = .ok p₂)
    (hle : p₁ ≤ p₂) (h₁ : advise range toolchain ⟨.seen m₁, i₁⟩ = .ok a₁)
    (h₂ : advise range toolchain ⟨.seen m₂, i₂⟩ = .ok a₂) (hr₁ : a₁.requiresInstall = true)
    (hr₂ : a₂.requiresInstall = true) :
    ∃ q₁ q₂, Version.majorMinorOf a₁.version = .ok q₁ ∧ Version.majorMinorOf a₂.version = .ok q₂ ∧
      q₁ ≤ q₂ :=
  ⟨range.nearest p₁, range.nearest p₂, majorMinorOf_advised h₁ hr₁ rfl hm₁,
    majorMinorOf_advised h₂ hr₂ rfl hm₂, range.nearest_mono hle⟩

/-- For 1!1.5, which is below the range, 1.11 is to be installed, and for 1.20rc1, which is within it,
1.20rc1 is. Epochs do not count here: with them 1!1.5 is the higher of the two. -/
theorem advise_mono_declared_from_1_5 :
    Version.majorMinorOf "1!1.5" = .ok ⟨1, 5⟩ ∧ Version.majorMinorOf "1.20rc1" = .ok ⟨1, 20⟩ ∧
      ∃ a₁ a₂, advise .standard {} ⟨.seen "1!1.5", .seen "devel"⟩ = .ok a₁ ∧
        advise .standard {} ⟨.seen "1.20rc1", .seen "devel"⟩ = .ok a₂ ∧
        a₁.version = "1.11" ∧ a₂.version = "1.20rc1" ∧
        ∃ q₁ q₂, Version.majorMinorOf a₁.version = .ok q₁ ∧
          Version.majorMinorOf a₂.version = .ok q₂ ∧ q₁ ≤ q₂ := by
  have h₁ : advise .standard {} ⟨.seen "1!1.5", .seen "devel"⟩ =
      .ok (adviceOf .standard {} ⟨.seen "1!1.5", .seen "devel"⟩ .manifestBelowEnvUnsupported) := rfl
  have h₂ : advise .standard {} ⟨.seen "1.20rc1", .seen "devel"⟩ =
      .ok (adviceOf .standard {} ⟨.seen "1.20rc1", .seen "devel"⟩
        .manifestSupportedEnvUnsupported) := rfl
  have hm₁ : Version.majorMinorOf "1!1.5" = .ok ⟨1, 5⟩ := rfl
  have hm₂ : Version.majorMinorOf "1.20rc1" = .ok ⟨1, 20⟩ := rfl
  exact ⟨hm₁, hm₂, _, _, h₁, h₂, rfl, rfl,
    advise_mono_declared hm₁ hm₂ (by decide) h₁ h₂ rfl rfl⟩

end Decision

end ToolchainChoice
