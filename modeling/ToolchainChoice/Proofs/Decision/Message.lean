import ToolchainChoice.Proofs.Decision.Absence
import ToolchainChoice.Proofs.Version.Characters

/-!
# What a message says

A message ends with the action that its advice asks for, and what fills its slots stands in it as it is.
The fixed texts hold no curly brace and neither does a bound of a range, so every brace of a message comes
from a name or from a version that was given, in the order of the slots: none is left of a slot, and none
is taken for one.
-/
namespace ToolchainChoice.Decision

open Text (Symbol)

variable {range : SupportedRange} {toolchain : Toolchain} {survey : Survey} {advice : Advice}
variable {code : Code} {fill : Slot → Symbols} {s t : Template} {slot : Slot} {x : Symbol}

/-! ## Rendering fragment by fragment -/

def Fragment.text (fill : Slot → Symbols) : Fragment → Symbols
  | .fixed text => text
  | .slot s => fill s

namespace Template

theorem render_cons (fill : Slot → Symbols) (fragment : Fragment) (t : Template) :
    render fill (fragment :: t) = fragment.text fill ++ t.render fill := by
  cases fragment <;> rfl

theorem suffix_render (h : s <:+ t) : s.render fill <:+ t.render fill := by
  obtain ⟨opening, rfl⟩ := h
  unfold render
  rw [List.flatMap_append]
  exact List.suffix_append _ _

/-- Symbols of a kind that no fixed text holds come from the slots, in their order. The induction is on
the fragments. -/
theorem filter_render {p : Symbol → Bool}
    (h : ∀ fragment ∈ t, (fragment.text fun _ => []).filter p = []) :
    (t.render fill).filter p = t.slots.flatMap fun s => (fill s).filter p := by
  induction t with
  | nil => rfl
  | cons fragment t ih =>
    have h := List.forall_mem_cons.mp h
    rw [render_cons, List.filter_append, ih h.2]
    cases fragment with
    | fixed text =>
      have hnone : ((Fragment.fixed text).text fill).filter p = [] := h.1
      rw [hnone]
      rfl
    | slot s => rfl

end Template

/-! ## The action at the end -/

/-- What a message ends with that announces an action. -/
def Target.closing : Target → Template
  | .nothing => Template.requestNothing
  | .least => [.fixed " (", .slot .least, .fixed ")."]
  | .greatest => [.fixed " (", .slot .greatest, .fixed ")."]
  | .declared => [.fixed " (", .slot .declared, .fixed ")."]

theorem Code.closing_suffix_template (code : Code) : code.target.closing <:+ code.template := by
  have key : ∀ code ∈ Code.all, code.target.closing <:+ code.template := by decide
  exact key code code.mem_all

/-- A text ends with this version as a message announces it. -/
def EndsWithVersion (version : String) (message : Symbols) : Prop :=
  ("(" ++ version ++ ")." : Symbols) <:+ message

/-- A text ends with the statement that nothing is requested. -/
def EndsWithoutRequest (name message : Symbols) : Prop :=
  ("Not requesting any version of " ++ name ++ "." : Symbols) <:+ message

theorem Target.closing_nothing :
    EndsWithoutRequest toolchain.name
      (Target.nothing.closing.render (Slot.fill range toolchain survey)) := by
  unfold EndsWithoutRequest
  simp [closing, Template.requestNothing, Template.render, Slot.fill]

theorem Target.closing_version {target : Target} (h : target ≠ .nothing) :
    EndsWithVersion (target.version range survey)
      (target.closing.render (Slot.fill range toolchain survey)) := by
  unfold EndsWithVersion
  cases target with
  | nothing => contradiction
  | least | greatest | declared =>
    have hopening : Symbols.ofString " (" = .char ' ' :: "(" := rfl
    simp [closing, Template.render, Slot.fill, Target.version, hopening, List.suffix_cons]

/-- Only the codes that ask for nothing leave the version empty: what is asked for is a version. -/
theorem target_version_eq_empty_iff (hcode : resolve range survey = .ok code) :
    code.target.version range survey = "" ↔ code.target = .nothing := by
  constructor
  · intro hempty
    obtain ⟨d, i, hd, hi⟩ := exists_states_of_resolve hcode
    obtain ⟨code', hcode', hsettled, hunsettled⟩ := exists_resolve_of_states hd hi
    obtain rfl := except_ok_unique hcode hcode'
    by_cases hs : Settled range survey d i
    · exact hsettled hs
    · rw [hunsettled hs] at hempty
      exact absurd hempty (SupportedRange.ne_empty_of_contains (contains_target hd))
  · intro hnothing
    rw [hnothing]
    rfl

/-! ## Braces -/

def isBrace (x : Symbol) : Bool := x == .char '\x7b' || x == .char '\x7d'

/-- With nothing in its slots no fragment of a message has a brace. -/
theorem Code.filter_isBrace_template (code : Code) :
    ∀ fragment ∈ code.template, (fragment.text fun _ => []).filter isBrace = [] := by
  have key : ∀ code ∈ Code.all, ∀ fragment ∈ code.template,
      (fragment.text fun _ => []).filter isBrace = [] := by decide +kernel
  exact key code code.mem_all

theorem not_isBrace_of_read {text : String} {v : Version} (h : Version.read text = .ok v)
    (hx : x ∈ (text : Symbols)) : isBrace x = false := by
  obtain ⟨c, hc, rfl⟩ := List.mem_map.mp hx
  refine Bool.eq_false_iff.mpr fun hbrace => ?_
  have hneither : Version.isVersionChar c = false ∧ Text.isBlank c = false := by
    simp only [isBrace, Bool.or_eq_true, beq_iff_eq, Symbol.char.injEq] at hbrace
    rcases hbrace with rfl | rfl <;> decide
  rcases Version.isVersionChar_or_isBlank_of_read h hc with hchar | hblank
  · rw [hneither.1] at hchar
    contradiction
  · rw [hneither.2] at hblank
    contradiction

/-- A brace in a slot is one of a name or of a version that was given. -/
theorem mem_of_isBrace_of_mem_fill (hbrace : isBrace x = true)
    (hx : x ∈ slot.fill range toolchain survey) :
    x ∈ toolchain.name ∨ x ∈ toolchain.manifest ∨
      x ∈ (survey.declared.text : Symbols) ∨ x ∈ (survey.installed.text : Symbols) := by
  cases slot with
  | name => exact .inl hx
  | manifest => exact .inr (.inl hx)
  | declared => exact .inr (.inr (.inl hx))
  | installed => exact .inr (.inr (.inr hx))
  | least =>
    obtain ⟨v, hv, -⟩ := range.read_min
    rw [not_isBrace_of_read hv hx] at hbrace
    contradiction
  | greatest =>
    obtain ⟨v, hv, -⟩ := range.read_max
    rw [not_isBrace_of_read hv hx] at hbrace
    contradiction

/-! ## Messages -/

/-- **Messages.** The message of an advice ends with the version to install, or says that none is
requested if there is none. Its braces are those of the texts in its slots, in their order, and each comes
from one of the two names or one of the two versions that were given. -/
theorem message_states_action (h : advise range toolchain survey = .ok advice) :
    (advice.version ≠ "" → EndsWithVersion advice.version advice.message) ∧
      (advice.version = "" → EndsWithoutRequest toolchain.name advice.message) ∧
      (advice.message.filter isBrace =
        advice.code.template.slots.flatMap fun s =>
          (s.fill range toolchain survey).filter isBrace) ∧
      ∀ x ∈ advice.message, isBrace x = true →
        x ∈ toolchain.name ∨ x ∈ toolchain.manifest ∨
          x ∈ (survey.declared.text : Symbols) ∨ x ∈ (survey.installed.text : Symbols) := by
  obtain ⟨code, hcode, rfl⟩ := except_map_eq_ok_iff.mp h
  have hend : code.target.closing.render (Slot.fill range toolchain survey) <:+
      code.template.render (Slot.fill range toolchain survey) :=
    Template.suffix_render code.closing_suffix_template
  have hbraces : (code.template.render (Slot.fill range toolchain survey)).filter isBrace =
      code.template.slots.flatMap fun s =>
        (s.fill range toolchain survey).filter isBrace :=
    Template.filter_render code.filter_isBrace_template
  refine ⟨fun hne => ?_, fun hempty => ?_, hbraces, fun x hx hbrace => ?_⟩
  · have htarget : code.target ≠ .nothing := fun hnothing =>
      hne ((target_version_eq_empty_iff hcode).mpr hnothing)
    exact (Target.closing_version htarget).trans hend
  · have htarget := (target_version_eq_empty_iff hcode).mp hempty
    rw [htarget] at hend
    exact Target.closing_nothing.trans hend
  · have hmem : x ∈ (code.template.render (Slot.fill range toolchain survey)).filter isBrace :=
      List.mem_filter.mpr ⟨hx, hbrace⟩
    rw [hbraces] at hmem
    obtain ⟨slot, -, hslot⟩ := List.mem_flatMap.mp hmem
    exact mem_of_isBrace_of_mem_fill hbrace (List.mem_filter.mp hslot).1

/-- A toolchain with a name that looks like a slot, and an installed version that looks like one and is
none: both stand in the message as they are. -/
theorem message_names_braced_toolchain :
    ∃ advice, advise .standard { name := "\x7benv\x7d" } ⟨.seen "1.20", .seen "\x7bmod\x7d"⟩ =
        .ok advice ∧
      advice.version = "1.20" ∧ EndsWithVersion "1.20" advice.message ∧
      advice.message.filter isBrace = "\x7b\x7d\x7b\x7d\x7b\x7d" := by
  have h : advise .standard { name := "\x7benv\x7d" } ⟨.seen "1.20", .seen "\x7bmod\x7d"⟩ =
      .ok (adviceOf .standard { name := "\x7benv\x7d" } ⟨.seen "1.20", .seen "\x7bmod\x7d"⟩
        .manifestSupportedEnvUnsupported) := rfl
  have hne : "1.20" ≠ "" := by decide
  obtain ⟨hversion, -, hbraces, -⟩ := message_states_action h
  exact ⟨_, h, rfl, hversion hne, hbraces.trans rfl⟩

end ToolchainChoice.Decision
