import ToolchainChoice.Decision.Advice
import ToolchainChoice.Proofs.Decision.Classification

/-!
# What the decision table decides

The table has a cell for every pair of states, and a cell may still compare two versions. Read as a
whole it says something simpler: the state of the declared version alone determines which version is
called for, and the installed version only decides whether it is to be installed. Every comparison
that a cell makes is between texts that the states have already shown to be versions, so the table
adds no failure of its own.
-/
namespace ToolchainChoice.Decision

variable {range : SupportedRange} {toolchain : Toolchain} {survey : Survey} {d i : State}
variable {code : Code} {advice : Advice}

namespace State

/-- The target that a declared version in this state calls for. -/
def target : State → Target
  | .absent => .greatest
  | .below => .least
  | .within => .declared
  | .above => .greatest

/-- What an installed version within the range has to reach if the declared one is in this state;
where there is nothing to reach it is always high enough. -/
def reference? : State → Option Reference
  | .absent | .below => none
  | .within => some .declared
  | .above => some .greatest

/-- Whether a pair of states calls for nothing, without a look at the versions. -/
def idle : State → State → Bool
  | .absent, .within | .below, .within | .above, .above => true
  | _, _ => false

/-- Where there is nothing to reach, every version within the range is high enough. -/
theorem idle_within_of_reference?_eq_none (h : d.reference? = none) : d.idle .within = true := by
  cases d with
  | absent | below => rfl
  | within | above => contradiction

end State

/-- The whole table. A cell holds the code of its states, or compares the installed version with the
reference; the target of every code is that of the declared version's state, or nothing. -/
theorem cell_cases (d i : State) :
    (∃ code, cell d i = .fixed code ∧ (i = .within → d.reference? = none) ∧
      code.target = if d.idle i then .nothing else d.target) ∨
    (i = .within ∧ d.idle i = false ∧ ∃ reference lower reached, d.reference? = some reference ∧
      cell d i = .compared reference lower reached ∧
      lower.target = d.target ∧ reached.target = .nothing) := by
  cases d <;> cases i
  case within.within => exact .inr ⟨rfl, rfl, .declared, _, _, rfl, rfl, rfl, rfl⟩
  case above.within => exact .inr ⟨rfl, rfl, .greatest, _, _, rfl, rfl, rfl, rfl⟩
  all_goals exact .inl ⟨_, rfl, by decide, rfl⟩

theorem resolve_of_states (hd : State.classify range survey.declared = .ok d)
    (hi : State.classify range survey.installed = .ok i) :
    resolve range survey = (cell d i).resolve range survey := by
  unfold resolve
  rw [hd, hi]
  rfl

theorem exists_states_of_resolve (h : resolve range survey = .ok code) :
    ∃ d i, State.classify range survey.declared = .ok d ∧
      State.classify range survey.installed = .ok i := by
  unfold resolve at h
  obtain ⟨d, hd, h⟩ := except_bind_eq_ok_iff.mp h
  obtain ⟨i, hi, -⟩ := except_bind_eq_ok_iff.mp h
  exact ⟨d, i, hd, hi⟩

/-- The installed version reaches a reference: it is not lower, all parts of both considered. -/
def Reaches (range : SupportedRange) (survey : Survey) (reference : Reference) : Prop :=
  ∃ order, Version.compareTexts (reference.version range survey) survey.installed.text = .ok order ∧
    order ≠ .gt

/-- A survey with these states calls for nothing. -/
def Settled (range : SupportedRange) (survey : Survey) (d i : State) : Prop :=
  d.idle i = true ∨
    i = .within ∧ ∃ reference, d.reference? = some reference ∧ Reaches range survey reference

/-- Where a reference is looked at, its text is a version. -/
theorem read_reference (hd : State.classify range survey.declared = .ok d) {reference : Reference}
    (hr : d.reference? = some reference) :
    ∃ v, Version.read (reference.version range survey) = .ok v := by
  cases d with
  | absent => contradiction
  | below => contradiction
  | within =>
    obtain rfl := Option.some.inj hr
    exact SupportedRange.exists_read_of_contains (State.classify_eq_within_iff.mp hd).2
  | above =>
    obtain rfl := Option.some.inj hr
    exact SupportedRange.exists_read_of_contains range.contains_max

/-- What a declared version is compared with, where it is compared, is what it calls for. -/
theorem reference_version_eq {reference : Reference} (hr : d.reference? = some reference) :
    reference.version range survey = d.target.version range survey := by
  cases d with
  | absent => contradiction
  | below => contradiction
  | within =>
    obtain rfl := Option.some.inj hr
    rfl
  | above =>
    obtain rfl := Option.some.inj hr
    rfl

/-- A comparing cell decides as soon as the two texts compare. -/
theorem Cell.resolve_compared {reference : Reference} {lower reached : Code} {order : Ordering}
    (h : Version.compareTexts (reference.version range survey) survey.installed.text = .ok order) :
    (Cell.compared reference lower reached).resolve range survey =
      .ok (if order = .gt then lower else reached) := by
  simp only [Cell.resolve, h]
  rfl

/-- Where both observations have a state the table gives a code. Its target is nothing if the survey
is settled, and else what the declared version calls for. -/
theorem exists_resolve_of_states (hd : State.classify range survey.declared = .ok d)
    (hi : State.classify range survey.installed = .ok i) :
    ∃ code, resolve range survey = .ok code ∧
      (Settled range survey d i → code.target = .nothing) ∧
      (¬ Settled range survey d i → code.target = d.target) := by
  rw [resolve_of_states hd hi]
  rcases cell_cases d i with
    ⟨code, hc, hnone, ht⟩ | ⟨rfl, hidle, reference, lower, reached, hr, hc, hl, hn⟩
  · refine ⟨code, by rw [hc]; rfl, ?_, ?_⟩
    · rintro (h | ⟨hi', reference, hr, -⟩)
      · rw [ht, if_pos h]
      · rw [hnone hi'] at hr
        contradiction
    · intro hs
      have h : ¬ d.idle i = true := fun h => hs (.inl h)
      rw [ht, if_neg h]
  · obtain ⟨v, hv⟩ := read_reference hd hr
    obtain ⟨w, hw⟩ :=
      SupportedRange.exists_read_of_contains (State.classify_eq_within_iff.mp hi).2
    have horder : Version.compareTexts (reference.version range survey) survey.installed.text =
        .ok (compare v w) := Version.compareTexts_eq_ok_iff.mpr ⟨v, w, hv, hw, rfl⟩
    refine ⟨if compare v w = .gt then lower else reached, ?_, ?_, ?_⟩
    · rw [hc, Cell.resolve_compared horder]
    · rintro (h | ⟨-, reference', hr', order, ho, hne⟩)
      · rw [hidle] at h
        contradiction
      · rw [hr] at hr'
        obtain rfl := Option.some.inj hr'
        rw [horder] at ho
        rw [Except.ok.inj ho, if_neg hne, hn]
    · intro hs
      have hgt : compare v w = .gt := Decidable.byContradiction fun hne =>
        hs (.inr ⟨rfl, reference, hr, _, horder, hne⟩)
      rw [if_pos hgt, hl]

/-! ## The advice -/

theorem requiresInstall_iff : advice.requiresInstall = true ↔ advice.version ≠ "" := by
  simp [Advice.requiresInstall]

theorem requiresInstall_eq_false_iff : advice.requiresInstall = false ↔ advice.version = "" := by
  simp [Advice.requiresInstall]

/-- What a version in this state calls for is a version within the range. -/
theorem contains_target (hd : State.classify range survey.declared = .ok d) :
    range.contains (d.target.version range survey) = .ok true := by
  cases d with
  | absent => exact range.contains_max
  | below => exact range.contains_min
  | within => exact (State.classify_eq_within_iff.mp hd).2
  | above => exact range.contains_max

/-- Where both observations have a state there is an advice. It is to install nothing if the survey
is settled, and else what the declared version calls for. -/
theorem exists_advise_of_states (toolchain : Toolchain)
    (hd : State.classify range survey.declared = .ok d)
    (hi : State.classify range survey.installed = .ok i) :
    ∃ advice, advise range toolchain survey = .ok advice ∧
      (Settled range survey d i → advice.version = "") ∧
      (¬ Settled range survey d i → advice.version = d.target.version range survey) := by
  obtain ⟨code, hc, hsettled, hunsettled⟩ := exists_resolve_of_states hd hi
  refine ⟨adviceOf range toolchain survey code, ?_, ?_, ?_⟩
  · exact except_map_eq_ok_iff.mpr ⟨code, hc, rfl⟩
  · intro hs
    change code.target.version range survey = ""
    rw [hsettled hs]
    rfl
  · intro hs
    change code.target.version range survey = d.target.version range survey
    rw [hunsettled hs]

/-- Without a state of the declared version there is no advice. -/
theorem advise_of_classify_error {e : Failure}
    (h : State.classify range survey.declared = .error e) :
    advise range toolchain survey = .error e := by
  unfold advise resolve
  rw [h]
  rfl

/-- Every advice comes from two states, and its version from whether they settle the survey. -/
theorem advise_cases (h : advise range toolchain survey = .ok advice) :
    ∃ d i, State.classify range survey.declared = .ok d ∧
      State.classify range survey.installed = .ok i ∧
      ((Settled range survey d i ∧ advice.version = "") ∨
        (¬ Settled range survey d i ∧ advice.version = d.target.version range survey)) := by
  obtain ⟨code, hc, -⟩ := except_map_eq_ok_iff.mp h
  obtain ⟨d, i, hd, hi⟩ := exists_states_of_resolve hc
  obtain ⟨advice', h', hsettled, hunsettled⟩ := exists_advise_of_states toolchain hd hi
  obtain rfl := except_ok_unique h h'
  refine ⟨d, i, hd, hi, ?_⟩
  by_cases hs : Settled range survey d i
  · exact .inl ⟨hs, hsettled hs⟩
  · exact .inr ⟨hs, hunsettled hs⟩

/-- The recommended version is empty or within the range. -/
theorem advise_version_mem_range (h : advise range toolchain survey = .ok advice) :
    advice.version = "" ∨ range.contains advice.version = .ok true := by
  obtain ⟨d, i, hd, -, ⟨-, hv⟩ | ⟨-, hv⟩⟩ := advise_cases h
  · exact .inl hv
  · rw [hv]
    exact .inr (contains_target hd)

end ToolchainChoice.Decision
