import ToolchainChoice.Diagnostics.Advisor
import ToolchainChoice.Proofs.Decision.Resolution
import ToolchainChoice.Proofs.Version.DottedNumbers

/-!
# When there is no decision

A text that is no version is no obstacle: it lies below every range. A text that is a version has a
place in the order, but its numbers must be short enough to be read, and where a version that was
found has one that is not there is no decision. This is the only way in which the decision fails;
the comparisons in the table, the message and the bounds of the range add none.
-/
namespace ToolchainChoice

/-- A version was found, and one of its numbers has more digits than can be read. -/
def Observation.Overlong (o : Observation) : Prop :=
  o.found = true ∧ ∃ w, Version.Written.ofText? o.text.toList = some w ∧
    ∃ ds ∈ w.numbers, Number.digitLimit < ds.length

namespace Decision

open Version (IsRun dotted)

variable {range : SupportedRange} {toolchain : Toolchain} {survey : Survey} {o : Observation}
variable {e : Failure}

theorem classify_eq_error_iff_overlong :
    State.classify range o = .error e ↔ e = .numberTooLong ∧ o.Overlong := by
  rw [State.classify_eq_error_iff, Version.read_eq_numberTooLong_iff]
  rfl

/-- The first step that fails is a classification; the table itself does not fail. -/
theorem classify_of_resolve_eq_error (h : resolve range survey = .error e) :
    State.classify range survey.declared = .error e ∨
      State.classify range survey.installed = .error e := by
  have h' := h
  unfold resolve at h'
  rcases except_bind_eq_error_iff.mp h' with hd | ⟨d, hd, h'⟩
  · exact .inl hd
  · rcases except_bind_eq_error_iff.mp h' with hi | ⟨i, hi, -⟩
    · exact .inr hi
    · obtain ⟨code, hc, -⟩ := exists_resolve_of_states hd hi
      rw [hc] at h
      contradiction

theorem resolve_eq_error_iff :
    resolve range survey = .error e ↔
      e = .numberTooLong ∧ (survey.declared.Overlong ∨ survey.installed.Overlong) := by
  constructor
  · intro h
    rcases classify_of_resolve_eq_error h with hd | hi
    · obtain ⟨he, hlong⟩ := classify_eq_error_iff_overlong.mp hd
      exact ⟨he, .inl hlong⟩
    · obtain ⟨he, hlong⟩ := classify_eq_error_iff_overlong.mp hi
      exact ⟨he, .inr hlong⟩
  · rintro ⟨rfl, hlong⟩
    unfold resolve
    cases hd : State.classify range survey.declared with
    | error f =>
      obtain ⟨rfl, -⟩ := classify_eq_error_iff_overlong.mp hd
      rfl
    | ok d =>
      rcases hlong with hlong | hlong
      · rw [classify_eq_error_iff_overlong.mpr ⟨rfl, hlong⟩] at hd
        contradiction
      · rw [classify_eq_error_iff_overlong.mpr ⟨rfl, hlong⟩]
        rfl

theorem advise_eq_error_iff :
    advise range toolchain survey = .error e ↔
      e = .numberTooLong ∧ (survey.declared.Overlong ∨ survey.installed.Overlong) :=
  except_map_eq_error_iff.trans resolve_eq_error_iff

/-- **Failures.** An advisor that keeps its advice to itself fails to give one, or a code, exactly if
a version that was found has a number that is too long, and then it is this that it reports. Such a
version has no state; a text that is no version has one, and with every version below the range it
shares the lowest. -/
theorem advisor_fails_iff_overlong (range : SupportedRange) (toolchain : Toolchain)
    (now : Calendar.Moment) (disk : Files.Disk) :
    (∀ survey e,
      ((Advisor.mk range toolchain .discard).advise now survey disk).trace.result = .error e ↔
        e = .numberTooLong ∧ (survey.declared.Overlong ∨ survey.installed.Overlong)) ∧
    (∀ survey e, ((Advisor.mk range toolchain .discard).resolve survey).result = .error e ↔
        e = .numberTooLong ∧ (survey.declared.Overlong ∨ survey.installed.Overlong)) ∧
    (∀ o e, State.classify range o = .error e ↔ e = .numberTooLong ∧ o.Overlong) ∧
    (∀ o, State.classify range o = .ok .below ↔ o.Unparsable ∨ o.Below range) := by
  refine ⟨fun survey e => ?_, fun survey e => ?_, fun o e => ?_, fun o => ?_⟩
  · rw [Advisor.advise_result _ now survey disk fun d => rfl]
    exact advise_eq_error_iff
  · have hr : ((Advisor.mk range toolchain .discard).resolve survey).result =
        resolve range survey := resolveNoting_result range survey
    rw [hr]
    exact resolve_eq_error_iff
  · exact classify_eq_error_iff_overlong
  · exact State.classify_eq_below_iff

/-- A version whose second number has 4301 digits. -/
def longMinor : String := String.ofList (dotted ['1'] [List.replicate 4301 '1'])

theorem overlong_longMinor : (Observation.seen longMinor).Overlong := by
  have hrun : ∀ ds ∈ [List.replicate 4301 '1'], IsRun ds := by
    intro ds hds
    rw [List.mem_singleton.mp hds]
    exact Version.isRun_replicate (by decide) (by decide)
  have hone : IsRun ['1'] := Version.isRun_replicate (n := 1) (by decide) (by decide)
  have hlong := Version.exists_long_of_dotted hone hrun
    (List.mem_cons_of_mem _ List.mem_cons_self) (by rw [List.length_replicate]; decide)
  exact ⟨rfl, hlong⟩

/-- A declared version whose second number has 4301 digits leaves no decision, though nothing is
wrong with it but its length. -/
theorem no_advice_for_long_minor :
    advise .standard {}
        ⟨.seen (String.ofList (dotted ['1'] [List.replicate 4301 '1'])), .missing⟩ =
      .error .numberTooLong :=
  advise_eq_error_iff.mpr ⟨rfl, .inl overlong_longMinor⟩

end Decision

end ToolchainChoice
