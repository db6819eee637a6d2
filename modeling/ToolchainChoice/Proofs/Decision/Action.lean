import ToolchainChoice.Proofs.Decision.Resolution

/-!
# The action of the decision, without its table

What is installed is specified here by the order of versions alone: neither codes nor cells occur.
The declared version is clamped to the range, and the installed version decides only whether the
clamped one is asked for. Two orders are involved. The place with respect to the range is one of the
first two numbers; whether the installed version is high enough is one of all parts of a version.
-/
namespace ToolchainChoice.Decision

variable {range : SupportedRange} {toolchain : Toolchain} {survey : Survey} {d i : State}
variable {advice : Advice}

/-- The version of the range that is nearest to the declared one. Nothing declared counts as above
the range, and what is no version as below it. -/
def clamp (range : SupportedRange) (declared : Observation) : String :=
  if declared.found then
    match Version.majorMinorOf declared.text with
    | .ok m =>
      if range.upper < m then range.max else if m < range.lower then range.min else declared.text
    | .error _ => range.min
  else range.max

/-- Of two texts that are versions, the left one is not above the right one. -/
def NotAbove (left right : String) : Prop :=
  ∃ order, Version.compareTexts left right = .ok order ∧ order ≠ .gt

/-- The installed version is within the range and high enough for the declared one. -/
def HighEnough (range : SupportedRange) (survey : Survey) : Prop :=
  survey.installed.Within range ∧
    (survey.declared.found = false ∨ survey.declared.Unparsable ∨ survey.declared.Below range ∨
      (survey.declared.Within range ∧ NotAbove survey.declared.text survey.installed.text) ∨
      (survey.declared.Above range ∧ NotAbove range.max survey.installed.text))

/-- Both versions are above the range, so that installing one from the range would be a step back. -/
def BothAbove (range : SupportedRange) (survey : Survey) : Prop :=
  survey.declared.Above range ∧ survey.installed.Above range

theorem settled_of_highEnough (hd : State.classify range survey.declared = .ok d)
    (hi : State.classify range survey.installed = .ok i) (h : HighEnough range survey) :
    Settled range survey d i := by
  obtain ⟨hw, hcases⟩ := h
  obtain rfl := except_ok_unique hi (State.classify_eq_within_iff.mpr hw)
  rcases hcases with hf | hu | hb | ⟨hdw, hn⟩ | ⟨hda, hn⟩
  · obtain rfl := except_ok_unique hd (State.classify_of_not_found hf)
    exact .inl rfl
  · obtain rfl := except_ok_unique hd (State.classify_of_unparsable hu)
    exact .inl rfl
  · obtain rfl := except_ok_unique hd (State.classify_eq_below_iff.mpr (.inr hb))
    exact .inl rfl
  · obtain rfl := except_ok_unique hd (State.classify_eq_within_iff.mpr hdw)
    exact .inr ⟨rfl, .declared, rfl, hn⟩
  · obtain rfl := except_ok_unique hd (State.classify_eq_above_iff.mpr hda)
    exact .inr ⟨rfl, .greatest, rfl, hn⟩

theorem settled_of_bothAbove (hd : State.classify range survey.declared = .ok d)
    (hi : State.classify range survey.installed = .ok i) (h : BothAbove range survey) :
    Settled range survey d i := by
  obtain rfl := except_ok_unique hd (State.classify_eq_above_iff.mpr h.1)
  obtain rfl := except_ok_unique hi (State.classify_eq_above_iff.mpr h.2)
  exact .inl rfl

/-- The table settles exactly the surveys that the order of versions settles. -/
theorem settled_iff (hd : State.classify range survey.declared = .ok d)
    (hi : State.classify range survey.installed = .ok i) :
    Settled range survey d i ↔ HighEnough range survey ∨ BothAbove range survey := by
  constructor
  · rintro (hidle | ⟨rfl, reference, hr, hreaches⟩)
    · -- the three pairs of states that call for nothing without a comparison
      cases d <;> cases i <;> try contradiction
      case absent.within =>
        exact .inl ⟨State.classify_eq_within_iff.mp hi, .inl (State.classify_eq_absent_iff.mp hd)⟩
      case below.within =>
        refine .inl ⟨State.classify_eq_within_iff.mp hi, .inr ?_⟩
        rcases State.classify_eq_below_iff.mp hd with hu | hb
        · exact .inl hu
        · exact .inr (.inl hb)
      case above.above =>
        exact .inr ⟨State.classify_eq_above_iff.mp hd, State.classify_eq_above_iff.mp hi⟩
    · refine .inl ⟨State.classify_eq_within_iff.mp hi, .inr (.inr (.inr ?_))⟩
      cases d with
      | absent => contradiction
      | below => contradiction
      | within =>
        obtain rfl := Option.some.inj hr
        exact .inl ⟨State.classify_eq_within_iff.mp hd, hreaches⟩
      | above =>
        obtain rfl := Option.some.inj hr
        exact .inr ⟨State.classify_eq_above_iff.mp hd, hreaches⟩
  · rintro (hh | hb)
    · exact settled_of_highEnough hd hi hh
    · exact settled_of_bothAbove hd hi hb

/-- What a state calls for is the declared version clamped to the range. -/
theorem target_version_eq_clamp (hd : State.classify range survey.declared = .ok d) :
    d.target.version range survey = clamp range survey.declared := by
  unfold clamp
  rcases State.classify_cases hd with ⟨hf, rfl⟩ | ⟨hu, rfl⟩ | ⟨hf, v, hv, rfl⟩
  · rw [hf]
    rfl
  · have hm := Version.majorMinorOf_of_malformed (Version.isValid_eq_false_iff.mp hu.2)
    rw [if_pos hu.1, hm]
    rfl
  · rw [if_pos hf, Version.majorMinorOf_eq_ok_iff.mpr ⟨v, hv, rfl⟩]
    unfold State.ofMajorMinor
    dsimp only
    split
    · rfl
    · split <;> rfl

/-- An advice to install something is to install the clamped declared version. -/
theorem version_eq_clamp (h : advise range toolchain survey = .ok advice)
    (hr : advice.requiresInstall = true) : advice.version = clamp range survey.declared := by
  obtain ⟨d, i, hd, -, ⟨-, hv⟩ | ⟨-, hv⟩⟩ := advise_cases h
  · exact absurd hv (requiresInstall_iff.mp hr)
  · exact hv.trans (target_version_eq_clamp hd)

/-- There is nothing to install exactly if the order of versions settles the survey. -/
theorem version_eq_empty_iff (h : advise range toolchain survey = .ok advice) :
    advice.version = "" ↔ HighEnough range survey ∨ BothAbove range survey := by
  obtain ⟨d, i, hd, hi, ⟨hs, hv⟩ | ⟨hs, hv⟩⟩ := advise_cases h
  · exact ⟨fun _ => (settled_iff hd hi).mp hs, fun _ => hv⟩
  · have hne : advice.version ≠ "" := by
      rw [hv]
      exact SupportedRange.ne_empty_of_contains (contains_target hd)
    exact ⟨fun he => absurd he hne, fun hso => absurd ((settled_iff hd hi).mpr hso) hs⟩

/-- There is something to install exactly if the survey is not settled. -/
theorem requiresInstall_iff_not_settled (h : advise range toolchain survey = .ok advice)
    (hd : State.classify range survey.declared = .ok d)
    (hi : State.classify range survey.installed = .ok i) :
    advice.requiresInstall = true ↔ ¬ Settled range survey d i := by
  rw [requiresInstall_iff, ne_eq, version_eq_empty_iff h, settled_iff hd hi]

/-- **The action.** An advice is to install nothing exactly if the installed version is within the
range and high enough, or both versions are above the range; every other advice is to install the
clamped declared version. So the installed version never has a say in which version it is. -/
theorem advise_version_spec (h : advise range toolchain survey = .ok advice) :
    (advice.version = "" ↔ HighEnough range survey ∨ BothAbove range survey) ∧
      (¬ (HighEnough range survey ∨ BothAbove range survey) →
        advice.version = clamp range survey.declared) ∧
      ∀ (toolchain' : Toolchain) (survey' : Survey) (advice' : Advice),
        survey'.declared = survey.declared → advise range toolchain' survey' = .ok advice' →
        advice.requiresInstall = true → advice'.requiresInstall = true →
        advice'.version = advice.version := by
  refine ⟨version_eq_empty_iff h, ?_, ?_⟩
  · intro hs
    have hne : advice.version ≠ "" := fun he => hs ((version_eq_empty_iff h).mp he)
    exact version_eq_clamp h (requiresInstall_iff.mpr hne)
  · intro toolchain' survey' advice' hdeclared h' hr hr'
    calc advice'.version = clamp range survey'.declared := version_eq_clamp h' hr'
      _ = clamp range survey.declared := by rw [hdeclared]
      _ = advice.version := (version_eq_clamp h hr).symm

/-- With 1.20.3 declared, 1.19 calls for 1.20.3, as having nothing installed does. -/
theorem version_spec_for_1_20_3 :
    ¬ (HighEnough .standard ⟨.seen "1.20.3", .seen "1.19"⟩ ∨
        BothAbove .standard ⟨.seen "1.20.3", .seen "1.19"⟩) ∧
      clamp .standard (.seen "1.20.3") = "1.20.3" ∧
      advise .standard {} ⟨.seen "1.20.3", .missing⟩ =
        .ok (adviceOf .standard {} ⟨.seen "1.20.3", .missing⟩ .manifestSupportedNoEnv) ∧
      (adviceOf .standard {} ⟨.seen "1.20.3", .missing⟩ .manifestSupportedNoEnv).version =
        "1.20.3" := by
  have hadvice : advise .standard {} ⟨.seen "1.20.3", .seen "1.19"⟩ =
      .ok (adviceOf .standard {} ⟨.seen "1.20.3", .seen "1.19"⟩ .manifestSupportedEnvLower) := rfl
  have hmissing : advise .standard {} ⟨.seen "1.20.3", .missing⟩ =
      .ok (adviceOf .standard {} ⟨.seen "1.20.3", .missing⟩ .manifestSupportedNoEnv) := rfl
  obtain ⟨hempty, hclamp, hsame⟩ := advise_version_spec hadvice
  have hsettled : ¬ (HighEnough .standard ⟨.seen "1.20.3", .seen "1.19"⟩ ∨
      BothAbove .standard ⟨.seen "1.20.3", .seen "1.19"⟩) :=
    fun hs => absurd (hempty.mpr hs) (by decide)
  refine ⟨hsettled, (hclamp hsettled).symm, hmissing, ?_⟩
  exact hsame {} ⟨.seen "1.20.3", .missing⟩ _ rfl hmissing rfl rfl

end ToolchainChoice.Decision
