import ToolchainChoice.Proofs.Decision.Resolution
import ToolchainChoice.Proofs.Version.Preorder

/-!
# Surveys that differ in spelling

A version can be written in many ways, and the decision does not depend on which is used. Two surveys
that differ in the spelling of their versions have the same states, compare in the same way where
versions are compared, and so get the same code. What is installed can differ in spelling as well, but
only where it is the declared version.
-/
namespace ToolchainChoice

/-- Nothing was found, or versions were that are equal. Texts of what was not found do not matter. -/
def Observation.SameVersion (o o' : Observation) : Prop :=
  (o.found = false ∧ o'.found = false) ∨
    (o.found = true ∧ o'.found = true ∧ Version.compareTexts o.text o'.text = .ok .eq)

/-- The surveys differ at most in the spelling of versions. -/
structure Survey.SameVersions (s s' : Survey) : Prop where
  declared : s.declared.SameVersion s'.declared
  installed : s.installed.SameVersion s'.installed

theorem Observation.SameVersion.compareTexts_eq {o o' : Observation} (h : o.SameVersion o')
    (hf : o.found = true) : Version.compareTexts o.text o'.text = .ok .eq := by
  rcases h with ⟨hnot, -⟩ | ⟨-, -, heq⟩
  · rw [hf] at hnot
    contradiction
  · exact heq

namespace Decision

variable {range : SupportedRange} {toolchain : Toolchain} {survey survey' : Survey}
variable {o o' : Observation} {d : State} {reference : Reference}

/-- Equal versions have the same state, since the first two numbers of a version are the same however
it is written. -/
theorem State.classify_congr (range : SupportedRange) (h : o.SameVersion o') :
    ∃ state, classify range o = .ok state ∧ classify range o' = .ok state := by
  rcases h with ⟨hf, hf'⟩ | ⟨hf, hf', heq⟩
  · exact ⟨.absent, classify_of_not_found hf, classify_of_not_found hf'⟩
  · obtain ⟨v, w, hv, hw, hparts⟩ := Version.compareTexts_eq_eq_iff.mp heq
    refine ⟨ofMajorMinor range v.majorMinor, classify_of_read hf hv, ?_⟩
    rw [hparts.majorMinor_eq]
    exact classify_of_read hf' hw

/-- What an installed version is compared with is found, or is a bound of the range. -/
theorem compareTexts_reference_congr (h : survey.SameVersions survey')
    (hd : State.classify range survey.declared = .ok d) (hr : d.reference? = some reference)
    (text : String) :
    Version.compareTexts (reference.version range survey) text =
      Version.compareTexts (reference.version range survey') text := by
  cases d with
  | absent | below => contradiction
  | within =>
    obtain rfl := Option.some.inj hr
    have hfound := (State.classify_eq_within_iff.mp hd).1
    exact (Version.compareTexts_congr (h.declared.compareTexts_eq hfound) text).1
  | above =>
    obtain rfl := Option.some.inj hr
    rfl

/-- Surveys that differ in spelling have the same code, from the same cell of the table. -/
theorem resolve_congr (range : SupportedRange) (h : survey.SameVersions survey') :
    resolve range survey = resolve range survey' := by
  obtain ⟨d, hd, hd'⟩ := State.classify_congr range h.declared
  obtain ⟨i, hi, hi'⟩ := State.classify_congr range h.installed
  rw [resolve_of_states hd hi, resolve_of_states hd' hi']
  rcases cell_cases d i with ⟨code, hc, -⟩ | ⟨rfl, -, reference, lower, reached, hr, hc, -⟩
  · rw [hc]
    rfl
  · have hfound := (State.classify_eq_within_iff.mp hi).1
    have hinstalled := h.installed.compareTexts_eq hfound
    have horder : Version.compareTexts (reference.version range survey) survey.installed.text =
        Version.compareTexts (reference.version range survey') survey'.installed.text := by
      rw [compareTexts_reference_congr h hd hr]
      exact (Version.compareTexts_congr hinstalled _).2
    simp only [hc, Cell.resolve, horder]

/-- What a state calls for is the same version for surveys that differ in spelling. -/
theorem compareTexts_target_congr (h : survey.SameVersions survey')
    (hd : State.classify range survey.declared = .ok d) :
    Version.compareTexts (d.target.version range survey) (d.target.version range survey') =
      .ok .eq := by
  obtain ⟨least, hleast, -⟩ := range.read_min
  obtain ⟨greatest, hgreatest, -⟩ := range.read_max
  cases d with
  | absent | above => exact Version.compareTexts_self hgreatest
  | below => exact Version.compareTexts_self hleast
  | within => exact h.declared.compareTexts_eq (State.classify_eq_within_iff.mp hd).1

/-- **Spelling.** Surveys that differ at most in the spelling of their versions both have an advice,
and these have the same code. Either both are to install nothing, or they are to install versions that
are equal. -/
theorem advise_respects_equality (range : SupportedRange) (toolchain : Toolchain)
    (h : survey.SameVersions survey') :
    ∃ advice advice', advise range toolchain survey = .ok advice ∧
      advise range toolchain survey' = .ok advice' ∧ advice.code = advice'.code ∧
      (advice.version = "" ∧ advice'.version = "" ∨
        Version.compareTexts advice.version advice'.version = .ok .eq) := by
  obtain ⟨d, hd, -⟩ := State.classify_congr range h.declared
  obtain ⟨i, hi, -⟩ := State.classify_congr range h.installed
  obtain ⟨code, hc, hsettled, hunsettled⟩ := exists_resolve_of_states hd hi
  have hc' : resolve range survey' = .ok code := (resolve_congr range h).symm.trans hc
  refine ⟨adviceOf range toolchain survey code, adviceOf range toolchain survey' code, ?_, ?_, rfl, ?_⟩
  · exact except_map_eq_ok_iff.mpr ⟨code, hc, rfl⟩
  · exact except_map_eq_ok_iff.mpr ⟨code, hc', rfl⟩
  · change code.target.version range survey = "" ∧ code.target.version range survey' = "" ∨
      Version.compareTexts (code.target.version range survey) (code.target.version range survey') =
        .ok .eq
    by_cases hs : Settled range survey d i
    · rw [hsettled hs]
      exact .inl ⟨rfl, rfl⟩
    · rw [hunsettled hs]
      exact .inr (compareTexts_target_congr h hd)

/-- With 1.20 declared and 1.19 installed, in two spellings, 1.20 is to be installed, in the spelling
of the manifest. -/
theorem advise_respects_equality_for_1_20 :
    Survey.SameVersions ⟨.seen "1.20", .seen "1.19"⟩ ⟨.seen "v1.20.0", .seen "go1.19.0"⟩ ∧
      ∃ advice advice', advise .standard {} ⟨.seen "1.20", .seen "1.19"⟩ = .ok advice ∧
        advise .standard {} ⟨.seen "v1.20.0", .seen "go1.19.0"⟩ = .ok advice' ∧
        advice.code = .manifestSupportedEnvLower ∧ advice'.code = .manifestSupportedEnvLower ∧
        advice.version = "1.20" ∧ advice'.version = "v1.20.0" ∧
        Version.compareTexts "1.20" "v1.20.0" = .ok .eq := by
  have hdeclared : Version.compareTexts "1.20" "v1.20.0" = .ok .eq := rfl
  have hinstalled : Version.compareTexts "1.19" "go1.19.0" = .ok .eq := rfl
  have hsame : Survey.SameVersions ⟨.seen "1.20", .seen "1.19"⟩
      ⟨.seen "v1.20.0", .seen "go1.19.0"⟩ :=
    ⟨.inr ⟨rfl, rfl, hdeclared⟩, .inr ⟨rfl, rfl, hinstalled⟩⟩
  have hgiven : advise .standard {} ⟨.seen "1.20", .seen "1.19"⟩ =
      .ok (adviceOf .standard {} ⟨.seen "1.20", .seen "1.19"⟩ .manifestSupportedEnvLower) := rfl
  have hgiven' : advise .standard {} ⟨.seen "v1.20.0", .seen "go1.19.0"⟩ =
      .ok (adviceOf .standard {} ⟨.seen "v1.20.0", .seen "go1.19.0"⟩ .manifestSupportedEnvLower) :=
    rfl
  obtain ⟨advice, advice', h, h', hcode, hversion⟩ := advise_respects_equality .standard {} hsame
  obtain rfl := except_ok_unique hgiven h
  obtain rfl := except_ok_unique hgiven' h'
  refine ⟨hsame, _, _, h, h', rfl, hcode.symm, rfl, rfl, ?_⟩
  rcases hversion with ⟨hempty, -⟩ | hequal
  · exact absurd hempty (by decide)
  · exact hequal

end Decision

end ToolchainChoice
