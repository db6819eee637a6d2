import Mathlib
import ToolchainChoice.Proofs.CommandLine.Output
import ToolchainChoice.Proofs.Decision.Resolution
import ToolchainChoice.Proofs.Diagnostics.Delivery
import ToolchainChoice.Proofs.Installation.Banner
import ToolchainChoice.Proofs.Text.Digits
import ToolchainChoice.Proofs.Text.Tokens
import ToolchainChoice.Proofs.Workspace.Requirement

/-!
# The texts that a survey holds

Both questions of a survey are answered by a piece of some text: a manifest or what an executable
prints. Either piece is cut out so that there is no white space in it, and is kept only if it is a
version. A survey that has been made is therefore decided on whatever the range is, and none of what
it found is taken for something that is no version.

Nothing is assumed of the manifests and of what is printed, except that there is a survey in the end.
-/
namespace ToolchainChoice

open Files (Path Disk)
open Text (isBlank)
open Traced

/-- There is no white space in the text. -/
def IsUnbroken (cs : List Char) : Prop := ∀ c ∈ cs, isBlank c = false

theorem IsUnbroken.of_subset {cs ds : List Char} (h : IsUnbroken cs) (hsub : ds ⊆ cs) :
    IsUnbroken ds :=
  fun c hc => h c (hsub hc)

theorem isUnbroken_takeWhile (cs : List Char) : IsUnbroken (cs.takeWhile fun c => !isBlank c) := by
  intro c hc
  simpa using List.mem_takeWhile_imp hc

/-! ## The workspace -/

namespace Workspace

variable {d : Disk} {root manifest : Path} {version : String} {cs v : List Char} {r : Requirement}

theorem subset_of_beforeComment? (h : beforeComment? cs = some v) : v ⊆ cs := by
  induction cs generalizing v with
  | nil => contradiction
  | cons c cs ih =>
    rw [beforeComment?] at h
    split at h
    · rename_i before hbefore
      obtain rfl := Option.some.inj h
      exact List.cons_subset_cons c (ih hbefore)
    · split at h
      · obtain rfl := Option.some.inj h
        simp
      · contradiction

theorem isUnbroken_of_directiveTail? (h : directiveTail? cs = some v) : IsUnbroken v := by
  unfold directiveTail? at h
  dsimp only at h
  split at h
  · contradiction
  · split at h
    · obtain rfl := Option.some.inj h
      exact isUnbroken_takeWhile _
    · exact (isUnbroken_takeWhile _).of_subset (subset_of_beforeComment? h)

theorem isUnbroken_of_directiveAt? (h : directiveAt? cs = some v) : IsUnbroken v := by
  unfold directiveAt? at h
  split at h
  · exact isUnbroken_of_directiveTail? h
  · contradiction

theorem isUnbroken_of_searchDirective {atLineStart : Bool}
    (h : searchDirective atLineStart cs = some v) : IsUnbroken v := by
  have hhere : ∀ (atLineStart : Bool) cs, (if atLineStart then directiveAt? cs else none) = some v →
      IsUnbroken v := by
    intro atLineStart cs h
    cases atLineStart with
    | true => exact isUnbroken_of_directiveAt? h
    | false => contradiction
  fun_induction searchDirective atLineStart cs with
  | case1 cs atLineStart w hw =>
    obtain rfl := Option.some.inj h
    exact hhere atLineStart cs hw
  | case2 => contradiction
  | case3 atLineStart c cs hnone ih => exact ih h

/-- What a manifest declares is the version of its directive. -/
theorem exists_directive_of_declares (h : Declares d manifest version) :
    ∃ text, directive? text = some version := by
  unfold Declares declaredIn at h
  split at h
  · exact absurd h unreadable_ne_some
  · split at h
    · exact absurd h unreadable_ne_some
    · rename_i text htext
      split at h
      · obtain ⟨-, -, hnone⟩ := result_bind_eq_ok_iff.mp h
        have hfalse := Except.ok.inj hnone
        contradiction
      · rename_i found hfound
        obtain ⟨valid, -, h⟩ := result_bind_eq_ok_iff.mp h
        cases valid with
        | true =>
          obtain rfl := Option.some.inj (Except.ok.inj h)
          exact ⟨text, hfound⟩
        | false =>
          obtain ⟨-, -, hnone⟩ := result_bind_eq_ok_iff.mp h
          have hfalse := Except.ok.inj hnone
          contradiction

theorem isUnbroken_of_requirement (h : (requirement d root).result = .ok (some r)) :
    IsUnbroken r.version.toList := by
  obtain ⟨found, -, hstrongest, -⟩ := exists_manifests_of_requirement h
  have hrequires : Requires d found (some r) := requires_nil.append_strongest hstrongest
  obtain ⟨text, hdirective⟩ := exists_directive_of_declares (hrequires.greatest r rfl).declares
  obtain ⟨v, hv, hversion⟩ := Option.map_eq_some_iff.mp hdirective
  rw [← hversion, String.toList_ofList]
  exact isUnbroken_of_searchDirective hv

end Workspace

/-! ## The machine -/

namespace Installation

variable {v : List Char}

/-- Neither the digits nor the marks between them are blank. -/
theorem isUnbroken_of_hasReleaseForm (h : HasReleaseForm v) : IsUnbroken v := by
  have hmarks : IsUnbroken formMarks := Text.unbroken_of_all (by decide)
  intro c hc
  rcases h.digit_or_mark c hc with hdigit | hmark
  · exact Text.isBlank_of_isDecimalDigit hdigit
  · exact hmarks c hmark

theorem isUnbroken_of_detect {machine : Machine} {executable : Symbols} {installed : Installed}
    (h : (detect machine executable).result = .ok (some installed)) :
    IsUnbroken installed.version.toList := by
  obtain ⟨output, houtput⟩ := exists_banner_of_detect h
  exact isUnbroken_of_hasReleaseForm (hasReleaseForm_of_banner? houtput)

end Installation

/-! ## A survey -/

/-- What is observed is a version in one piece, or nothing at all. -/
structure Observation.IsClean (o : Observation) : Prop where
  usable : o.found = true → IsUsable o.text
  ne_empty : o.found = true → o.text ≠ ""
  unbroken : o.found = true → IsUnbroken o.text.toList
  missing : o.found = false → o.text = ""

theorem Observation.isClean_ofOption {version : Option String} (husable : ∀ v ∈ version, IsUsable v)
    (hunbroken : ∀ v ∈ version, IsUnbroken v.toList) :
    (Observation.ofOption version).IsClean := by
  cases version with
  | none => exact ⟨by simp [ofOption, missing], by simp [ofOption, missing],
      by simp [ofOption, missing], fun _ => rfl⟩
  | some text =>
    have hvalid := husable text rfl
    obtain ⟨v, hv⟩ := Version.isValid_eq_true_iff.mp hvalid
    exact ⟨fun _ => hvalid, fun _ => Version.ne_empty_of_read hv, fun _ => hunbroken text rfl,
      by simp [ofOption, seen]⟩

theorem Workspace.isClean_of_observe {disk : Disk} {root : Path} {o : Observation}
    (h : (observe disk root).result = .ok o) : o.IsClean := by
  obtain ⟨best, hbest, rfl⟩ := exists_requirement_of_observe h
  refine Observation.isClean_ofOption ?_ ?_
  · intro v hv
    obtain ⟨r, hr, rfl⟩ := Option.map_eq_some_iff.mp hv
    exact isUsable_of_requirement hbest r hr
  · intro v hv
    obtain ⟨r, rfl, rfl⟩ := Option.map_eq_some_iff.mp hv
    exact isUnbroken_of_requirement hbest

theorem Installation.isClean_of_observe {machine : Machine} {executable : Symbols} {o : Observation}
    (h : (observe machine executable).result = .ok o) : o.IsClean := by
  obtain ⟨found, hfound, rfl⟩ := exists_detect_of_observe h
  refine Observation.isClean_ofOption ?_ ?_
  · intro v hv
    obtain ⟨i, hi, rfl⟩ := Option.map_eq_some_iff.mp hv
    exact isUsable_of_detect hfound i hi
  · intro v hv
    obtain ⟨i, rfl, rfl⟩ := Option.map_eq_some_iff.mp hv
    exact isUnbroken_of_detect hfound

/-! ## The decision on a survey -/

/-- Both parts of a survey are clean. -/
structure Survey.IsClean (survey : Survey) : Prop where
  declared : survey.declared.IsClean
  installed : survey.installed.IsClean

namespace Decision

variable {o : Observation} {survey : Survey}

theorem isUnparsable_of_isClean (h : o.IsClean) : isUnparsable o = false := by
  unfold isUnparsable
  cases hf : o.found with
  | false => rfl
  | true =>
    obtain ⟨v, hv⟩ := Version.isValid_eq_true_iff.mp (h.usable hf)
    rw [hv]
    rfl

theorem exists_classify_of_isClean (range : SupportedRange) (h : o.IsClean) :
    ∃ state, State.classify range o = .ok state := by
  cases hf : o.found with
  | false => exact ⟨.absent, State.classify_of_not_found hf⟩
  | true =>
    obtain ⟨v, hv⟩ := Version.isValid_eq_true_iff.mp (h.usable hf)
    exact ⟨_, State.classify_of_read hf hv⟩

/-- No remark is made on a version in one piece. -/
theorem classifyNoting_of_isClean {range : SupportedRange} {state : State} (h : o.IsClean)
    (hstate : State.classify range o = .ok state) : classifyNoting range o = pure state := by
  unfold classifyNoting
  rw [hstate, isUnparsable_of_isClean h]
  rfl

/-- A clean survey has a code, and none of the remarks that a decision can make is made on it. -/
theorem exists_resolve_of_isClean (range : SupportedRange) (h : survey.IsClean) :
    ∃ code, resolve range survey = .ok code ∧ resolveNoting range survey = pure code := by
  obtain ⟨d, hd⟩ := exists_classify_of_isClean range h.declared
  obtain ⟨i, hi⟩ := exists_classify_of_isClean range h.installed
  obtain ⟨code, hcode, -⟩ := exists_resolve_of_states hd hi
  have hcell : (cell d i).resolve range survey = .ok code :=
    (resolve_of_states hd hi).symm.trans hcode
  refine ⟨code, hcode, ?_⟩
  unfold resolveNoting
  rw [classifyNoting_of_isClean h.declared hd, classifyNoting_of_isClean h.installed hi, pure_bind,
    pure_bind, hcell]
  rfl

end Decision

namespace Advisor

open Decision (adviceOf)

variable {a : Advisor} {survey : Survey}

/-- All that an advisor has in its log after a clean survey is the decision itself. -/
theorem consider_of_isClean (a : Advisor) (h : survey.IsClean) :
    ∃ code, Decision.resolve a.range survey = .ok code ∧
      a.consider survey =
        (do .debug .decision ("Decision " ++ code.slug ++ " for " ++ survey.text)
            return adviceOf a.range a.toolchain survey code) := by
  obtain ⟨code, hcode, hnoting⟩ := Decision.exists_resolve_of_isClean a.range h
  refine ⟨code, hcode, ?_⟩
  unfold consider
  rw [hnoting, pure_bind]

end Advisor

/-! ## What is collected is decided -/

variable {s : Surroundings} {settings : Config.Settings} {disk : Disk} {root : Path}
variable {survey : Survey}

theorem isClean_of_survey
    (h : (s.survey settings (Workspace.observe disk root)).result = .ok survey) :
    survey.IsClean := by
  obtain ⟨declared, hdeclared, h⟩ := result_bind_eq_ok_iff.mp h
  obtain ⟨installed, hinstalled, h⟩ := result_bind_eq_ok_iff.mp h
  obtain ⟨-, -, h⟩ := result_bind_eq_ok_iff.mp h
  obtain rfl := Except.ok.inj h
  exact ⟨Workspace.isClean_of_observe hdeclared, Installation.isClean_of_observe hinstalled⟩

/-- **Collected versions.** Whatever the manifests and the machine are, if there is a survey then the
versions that it has found are versions, in one piece and not empty, and the others are empty. The
decision on it has a result for every range and naming: a sink that can be named hears of it and the
advice is given, and of what has been observed nothing is remarked on. -/
theorem collected_versions_are_decided
    (h : (s.survey settings (Workspace.observe disk root)).result = .ok survey) :
    (∀ o ∈ [survey.declared, survey.installed],
      (o.found = true →
        Version.isValid o.text = .ok true ∧ o.text ≠ "" ∧ ∀ c ∈ o.text.toList, isBlank c = false) ∧
      (o.found = false → o.text = "")) ∧
    ∀ advisor : Advisor,
      Decision.isUnparsable survey.declared = false ∧
      Decision.isUnparsable survey.installed = false ∧
      ∃ code, Decision.resolve advisor.range survey = .ok code ∧
        (advisor.consider survey).records =
          [⟨.debug, .decision, "Decision " ++ code.slug ++ " for " ++ survey.text⟩] ∧
        ∀ now disk', advisor.sink.IsNamed →
          (advisor.advise now survey disk').trace.result =
            .ok (Decision.adviceOf advisor.range advisor.toolchain survey code) := by
  have hclean := isClean_of_survey h
  refine ⟨?_, fun advisor => ⟨?_, ?_, ?_⟩⟩
  · intro o ho
    have ho : o.IsClean := by
      rcases List.mem_pair.mp ho with rfl | rfl
      · exact hclean.declared
      · exact hclean.installed
    exact ⟨fun hf => ⟨ho.usable hf, ho.ne_empty hf, ho.unbroken hf⟩, ho.missing⟩
  · exact Decision.isUnparsable_of_isClean hclean.declared
  · exact Decision.isUnparsable_of_isClean hclean.installed
  · obtain ⟨code, hcode, hconsider⟩ := advisor.consider_of_isClean hclean
    refine ⟨code, hcode, ?_, ?_⟩
    · rw [hconsider]
      rfl
    · intro now disk' hnamed
      have hemits := fun d => Diagnostics.Sink.emit_result_of_isNamed now d disk' hnamed
      rw [advisor.advise_result now survey disk' hemits]
      unfold advise
      rw [hcode]
      rfl

/-- A module that asks for `1.20` on a machine that has `1.21.3`. -/
def olderModule : Disk where
  root := .folder [("go.mod", .file "go 1.20\n".toUTF8)]
  here := []

def newerMachine : Installation.Machine where
  find _ := some "/usr/bin/go"
  reply _ := .exited 0 "go version go1.21.3 linux/amd64"

theorem collected_versions_of_olderModule_are_decided :
    (Surroundings.survey ⟨newerMachine, default, .working⟩ {}
        (Workspace.observe olderModule (.ofRoot []))).result =
      .ok ⟨.seen "1.20", .seen "1.21.3"⟩ ∧
    ∃ code, Decision.resolve .standard ⟨.seen "1.20", .seen "1.21.3"⟩ = .ok code ∧
      ((Advisor.mk .standard {} .discard).advise default ⟨.seen "1.20", .seen "1.21.3"⟩
          olderModule).trace.result =
        .ok (Decision.adviceOf .standard {} ⟨.seen "1.20", .seen "1.21.3"⟩ code) := by
  have h : (Surroundings.survey ⟨newerMachine, default, .working⟩ {}
      (Workspace.observe olderModule (.ofRoot []))).result =
        .ok ⟨.seen "1.20", .seen "1.21.3"⟩ := by
    have hdeclared : (Workspace.observe olderModule (.ofRoot [])).result =
        .ok (.seen "1.20") := by cbv
    have hinstalled : (Installation.observe newerMachine "go").result =
        .ok (.seen "1.21.3") := by decide +kernel
    exact result_bind_eq_ok_iff.mpr ⟨_, hdeclared, result_bind_eq_ok_iff.mpr ⟨_, hinstalled, rfl⟩⟩
  obtain ⟨-, hdecided⟩ := collected_versions_are_decided h
  obtain ⟨-, -, code, hcode, -, hadvise⟩ := hdecided ⟨.standard, {}, .discard⟩
  exact ⟨h, code, hcode, hadvise default olderModule trivial⟩

end ToolchainChoice
