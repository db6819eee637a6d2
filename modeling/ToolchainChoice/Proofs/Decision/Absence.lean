import ToolchainChoice.Diagnostics.Advisor
import ToolchainChoice.Proofs.Decision.Resolution
import ToolchainChoice.Proofs.Trace.Silence

/-!
# Versions that were not found

The text of an observation means something only if the version was found. Two surveys with the same
findings have the same states, so the same cell of the table decides for both. Whatever a cell compares,
and whatever a code of the cell installs or mentions, is a bound of the range or was found. So the advice
is the same, and a sink hears the same of it.
-/
namespace ToolchainChoice

/-- The same version was found, or none; the texts of what was not found are of no account. -/
def Observation.SameFinding (o o' : Observation) : Prop :=
  o.found = o'.found ∧ (o.found = true → o.text = o'.text)

structure Survey.SameFindings (s s' : Survey) : Prop where
  declared : s.declared.SameFinding s'.declared
  installed : s.installed.SameFinding s'.installed

namespace Decision

open Calendar (Moment)
open Files (Disk)

variable {range : SupportedRange} {survey survey' : Survey} {o o' : Observation} {d i : State}
variable {code : Code} {fill fill' : Slot → Symbols} {t : Template} {slot : Slot}

/-! ## What is looked at -/

/-- The slots of a template, in order. -/
def Template.slots (t : Template) : List Slot :=
  t.filterMap fun
    | .fixed _ => none
    | .slot s => some s

/-- A message depends on what fills its slots, and on nothing else. -/
theorem Template.render_congr (h : ∀ s ∈ t.slots, fill s = fill' s) :
    t.render fill = t.render fill' := by
  unfold render
  rw [List.flatMap_def, List.flatMap_def]
  congr 1
  apply List.map_congr_left
  intro fragment hmem
  cases fragment with
  | fixed text => rfl
  | slot s => exact h s (List.mem_filterMap.mpr ⟨.slot s, hmem, rfl⟩)

/-- With these states the slot is filled with something known: if it takes an observed version, that
version is not absent. -/
def Slot.Known (d i : State) (s : Slot) : Prop :=
  (s = .declared → d ≠ .absent) ∧ (s = .installed → i ≠ .absent)

instance (d i : State) : DecidablePred (Slot.Known d i) := fun _ =>
  inferInstanceAs (Decidable (_ ∧ _))

/-- The codes that a cell can give. -/
def Cell.codes : Cell → List Code
  | .fixed code => [code]
  | .compared _ lower reached => [lower, reached]

theorem Cell.mem_codes_of_resolve {c : Cell} (h : c.resolve range survey = .ok code) :
    code ∈ c.codes := by
  cases c with
  | fixed code' =>
    obtain rfl := Except.ok.inj h
    exact List.mem_singleton_self _
  | compared reference lower reached =>
    obtain ⟨order, -, h⟩ := except_bind_eq_ok_iff.mp h
    obtain rfl := Except.ok.inj h
    split
    · exact List.mem_cons_self
    · exact List.mem_cons_of_mem _ List.mem_cons_self

/-- No message mentions an absent version. -/
theorem known_of_mem_slots (d i : State) :
    ∀ code ∈ (cell d i).codes, ∀ s ∈ code.template.slots, s.Known d i := by
  cases d <;> cases i <;> decide

/-- An absent version is not to be installed. -/
theorem known_of_target (d i : State) :
    ∀ code ∈ (cell d i).codes, code.target = .declared → d ≠ .absent := by
  cases d <;> cases i <;> decide

/-! ## Surveys with the same findings -/

theorem State.classify_of_sameFinding (range : SupportedRange) (h : o.SameFinding o') :
    classify range o = classify range o' := by
  obtain ⟨hfound, htext⟩ := h
  unfold classify
  rw [← hfound]
  split
  · rename_i hf
    rw [htext hf]
  · rfl

theorem text_of_sameFinding {state : State} (h : o.SameFinding o')
    (ho : State.classify range o = .ok state) (hne : state ≠ .absent) : o.text = o'.text := by
  apply h.2
  cases hf : o.found with
  | true => rfl
  | false =>
    rw [State.classify_of_not_found hf] at ho
    exact absurd (Except.ok.inj ho).symm hne

theorem Slot.fill_of_known {toolchain : Toolchain} (h : survey.SameFindings survey')
    (hd : State.classify range survey.declared = .ok d)
    (hi : State.classify range survey.installed = .ok i) (hknown : slot.Known d i) :
    slot.fill range toolchain survey = slot.fill range toolchain survey' := by
  cases slot with
  | declared => exact congrArg Symbols.ofString (text_of_sameFinding h.declared hd (hknown.1 rfl))
  | installed => exact congrArg Symbols.ofString (text_of_sameFinding h.installed hi (hknown.2 rfl))
  | name | manifest | least | greatest => rfl

theorem Target.version_of_known {target : Target} (h : survey.SameFindings survey')
    (hd : State.classify range survey.declared = .ok d) (hknown : target = .declared → d ≠ .absent) :
    target.version range survey = target.version range survey' := by
  cases target with
  | declared => exact text_of_sameFinding h.declared hd (hknown rfl)
  | nothing | least | greatest => rfl

/-- A cell that compares does so only where both versions were found, or where the bound takes the
place of the declared one. -/
theorem Cell.resolve_of_sameFindings (h : survey.SameFindings survey')
    (hd : State.classify range survey.declared = .ok d)
    (hi : State.classify range survey.installed = .ok i) :
    (cell d i).resolve range survey = (cell d i).resolve range survey' := by
  rcases cell_cases d i with ⟨code, hc, -⟩ | ⟨rfl, -, reference, lower, reached, hr, hc, -⟩
  · rw [hc]
    rfl
  · have hinstalled := text_of_sameFinding h.installed hi (by decide)
    have hreference : reference.version range survey = reference.version range survey' := by
      cases d with
      | absent | below => contradiction
      | within =>
        obtain rfl := Option.some.inj hr
        exact text_of_sameFinding h.declared hd (by decide)
      | above =>
        obtain rfl := Option.some.inj hr
        rfl
    rw [hc, resolve, resolve, hreference, hinstalled]

theorem resolve_of_declared_error {e : Failure}
    (hd : State.classify range survey.declared = .error e) : resolve range survey = .error e := by
  unfold resolve
  rw [hd]
  rfl

theorem resolve_of_installed_error {e : Failure}
    (hd : State.classify range survey.declared = .ok d)
    (hi : State.classify range survey.installed = .error e) : resolve range survey = .error e := by
  unfold resolve
  rw [hd, hi]
  rfl

theorem resolve_of_sameFindings (range : SupportedRange) (h : survey.SameFindings survey') :
    resolve range survey = resolve range survey' := by
  have hdeclared := State.classify_of_sameFinding range h.declared
  have hinstalled := State.classify_of_sameFinding range h.installed
  cases hd : State.classify range survey.declared with
  | error e => rw [resolve_of_declared_error hd, resolve_of_declared_error (hdeclared ▸ hd)]
  | ok d =>
    have hd' := hdeclared ▸ hd
    cases hi : State.classify range survey.installed with
    | error e =>
      rw [resolve_of_installed_error hd hi, resolve_of_installed_error hd' (hinstalled ▸ hi)]
    | ok i =>
      rw [resolve_of_states hd hi, resolve_of_states hd' (hinstalled ▸ hi)]
      exact Cell.resolve_of_sameFindings h hd hi

/-- A code that was reached for a survey says the same of every survey with the same findings. -/
theorem adviceOf_of_sameFindings (toolchain : Toolchain) (h : survey.SameFindings survey')
    (hcode : resolve range survey = .ok code) :
    adviceOf range toolchain survey code = adviceOf range toolchain survey' code := by
  obtain ⟨d, i, hd, hi⟩ := exists_states_of_resolve hcode
  rw [resolve_of_states hd hi] at hcode
  have hmem := Cell.mem_codes_of_resolve hcode
  have hmessage : code.template.render (Slot.fill range toolchain survey) =
      code.template.render (Slot.fill range toolchain survey') :=
    Template.render_congr fun s hs =>
      Slot.fill_of_known h hd hi (known_of_mem_slots d i code hmem s hs)
  have hversion : code.target.version range survey = code.target.version range survey' :=
    Target.version_of_known h hd (known_of_target d i code hmem)
  unfold adviceOf
  rw [hmessage, hversion]

theorem advise_of_sameFindings (range : SupportedRange) (toolchain : Toolchain)
    (h : survey.SameFindings survey') :
    advise range toolchain survey = advise range toolchain survey' := by
  unfold advise
  rw [← resolve_of_sameFindings range h]
  cases hcode : resolve range survey with
  | error e => rfl
  | ok code => exact congrArg Except.ok (adviceOf_of_sameFindings toolchain h hcode)

/-! ## What an advisor does -/

/-- An advisor acts on the advice it has come to: the sink, the disk and the answer depend on nothing
else that the surveys hold. -/
theorem advisor_congr {a : Advisor} (now : Moment) (disk : Disk)
    (h : advise a.range a.toolchain survey = advise a.range a.toolchain survey') :
    (a.advise now survey disk).trace.result = (a.advise now survey' disk).trace.result ∧
      (a.advise now survey disk).sink = (a.advise now survey' disk).sink ∧
      (a.advise now survey disk).disk = (a.advise now survey' disk).disk := by
  rw [← a.consider_result survey, ← a.consider_result survey'] at h
  unfold Advisor.advise
  cases hr : (a.consider survey').result with
  | error e =>
    rw [hr] at h
    simp only [h, hr, and_self]
  | ok advice =>
    rw [hr] at h
    simp only [h, hr, and_self, and_true]
    rw [Traced.result_bind_of_ok h, Traced.result_bind_of_ok hr]

/-- **Missing versions.** What the text of an observation is makes no difference if the version was not
found. Whatever the range, the toolchain and the sink of an advisor are, surveys with the same findings
have the same advice, with the same message, version and code, or fail in the same way; and the advisor
gives the same answer to both and leaves the same diagnostics behind. -/
theorem advise_ignores_missing_texts (a : Advisor) (h : survey.SameFindings survey') :
    advise a.range a.toolchain survey = advise a.range a.toolchain survey' ∧
      ∀ now disk, (a.advise now survey disk).trace.result = (a.advise now survey' disk).trace.result ∧
        (a.advise now survey disk).sink = (a.advise now survey' disk).sink ∧
        (a.advise now survey disk).disk = (a.advise now survey' disk).disk := by
  have hadvice := advise_of_sameFindings a.range a.toolchain h
  exact ⟨hadvice, fun now disk => advisor_congr now disk hadvice⟩

/-- The texts of the manifest version that was not found are no version, or one with too long a number. -/
theorem advise_ignores_missing_manifest :
    Survey.SameFindings ⟨⟨"1.x", false⟩, .seen "1.20"⟩
        ⟨⟨String.ofList ('1' :: '.' :: List.replicate 4301 '1'), false⟩, .seen "1.20"⟩ ∧
      advise .standard {} ⟨⟨"1.x", false⟩, .seen "1.20"⟩ =
        advise .standard {}
          ⟨⟨String.ofList ('1' :: '.' :: List.replicate 4301 '1'), false⟩, .seen "1.20"⟩ ∧
      (advise .standard {} ⟨⟨"1.x", false⟩, .seen "1.20"⟩).map Advice.code =
        .ok .noManifestEnvSupported := by
  have hsame : Survey.SameFindings ⟨⟨"1.x", false⟩, .seen "1.20"⟩
      ⟨⟨String.ofList ('1' :: '.' :: List.replicate 4301 '1'), false⟩, .seen "1.20"⟩ :=
    ⟨⟨rfl, fun hfound => absurd hfound (by decide)⟩, ⟨rfl, fun _ => rfl⟩⟩
  exact ⟨hsame, (advise_ignores_missing_texts ⟨.standard, {}, .discard⟩ hsame).1, rfl⟩

end Decision

end ToolchainChoice
