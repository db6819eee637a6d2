import ToolchainChoice.Identification
import ToolchainChoice.Proofs.Results
import ToolchainChoice.Proofs.Trace.Silence

/-!
# What the workspace and the machine answer

Whatever is in the manifests of a workspace and whatever an executable prints, a version that comes
out of either can be read as one. Nothing is said of when there is one.
-/
namespace ToolchainChoice

open Files (Path Disk)
open Traced (result_bind_eq_ok_iff result_lift)

/-- Can be read as a version. -/
def IsUsable (version : String) : Prop := Version.isValid version = .ok true

/-! ## The workspace -/

namespace Workspace

variable {d : Disk} {root manifest : Path} {manifests : List Path} {version : String}
variable {best best' : Option Requirement}

theorem unreadable_ne_some {reason : String} :
    (unreadable manifest reason).result ≠ .ok (some version) := by
  intro h
  have hnone := Except.ok.inj h
  contradiction

/-- What a manifest declares has been checked. -/
theorem isUsable_of_declaredIn (h : (declaredIn d manifest).result = .ok (some version)) :
    IsUsable version := by
  unfold declaredIn at h
  split at h
  · exact absurd h unreadable_ne_some
  · split at h
    · exact absurd h unreadable_ne_some
    · split at h
      · obtain ⟨-, -, hnone⟩ := result_bind_eq_ok_iff.mp h
        have hfalse := Except.ok.inj hnone
        contradiction
      · obtain ⟨valid, hvalid, h⟩ := result_bind_eq_ok_iff.mp h
        rw [result_lift] at hvalid
        cases valid with
        | true =>
          obtain rfl := Option.some.inj (Except.ok.inj h)
          exact hvalid
        | false =>
          obtain ⟨-, -, hnone⟩ := result_bind_eq_ok_iff.mp h
          have hfalse := Except.ok.inj hnone
          contradiction

/-- A requirement after another manifest is the one before it or that of the manifest. -/
theorem version_of_improve (h : Requirement.improve best manifest version = .ok best') :
    best' = some ⟨version, manifest⟩ ∨ best' = best := by
  cases best with
  | none => exact .inl (Except.ok.inj h).symm
  | some r =>
    obtain ⟨order, -, h⟩ := except_bind_eq_ok_iff.mp h
    obtain rfl := Except.ok.inj h
    by_cases hgt : order = .gt
    · exact .inl (by rw [if_pos hgt])
    · exact .inr (by rw [if_neg hgt])

/-- The requirement of some manifests can be used if that of those before them can: by induction on
the manifests. -/
theorem isUsable_of_strongest (hbest : ∀ r ∈ best, IsUsable r.version)
    (h : (strongest d best manifests).result = .ok best') : ∀ r ∈ best', IsUsable r.version := by
  induction manifests generalizing best with
  | nil =>
    obtain rfl := Except.ok.inj h
    exact hbest
  | cons manifest manifests ih =>
    rw [strongest] at h
    obtain ⟨declared, hdeclared, h⟩ := result_bind_eq_ok_iff.mp h
    cases declared with
    | none => exact ih hbest h
    | some version =>
      obtain ⟨next, himprove, h⟩ := result_bind_eq_ok_iff.mp h
      refine ih ?_ h
      rcases version_of_improve himprove with rfl | rfl
      · rintro r hr
        obtain rfl := Option.some.inj hr
        exact isUsable_of_declaredIn hdeclared
      · exact hbest

theorem isUsable_of_requirement (h : (requirement d root).result = .ok best) :
    ∀ r ∈ best, IsUsable r.version := by
  unfold requirement at h
  obtain ⟨found, -, h⟩ := result_bind_eq_ok_iff.mp h
  obtain ⟨greatest, hgreatest, h⟩ := result_bind_eq_ok_iff.mp h
  have husable := isUsable_of_strongest (by simp) hgreatest
  cases greatest with
  | none =>
    obtain ⟨-, -, h⟩ := result_bind_eq_ok_iff.mp h
    obtain rfl := Except.ok.inj h
    exact husable
  | some r =>
    obtain ⟨-, -, h⟩ := result_bind_eq_ok_iff.mp h
    obtain rfl := Except.ok.inj h
    exact husable

/-- What a workspace declares is its requirement. -/
theorem exists_requirement_of_observe {o : Observation} (h : (observe d root).result = .ok o) :
    ∃ best, (requirement d root).result = .ok best ∧
      o = .ofOption (best.map Requirement.version) := by
  obtain ⟨best, hbest, h⟩ := result_bind_eq_ok_iff.mp h
  exact ⟨best, hbest, (Except.ok.inj h).symm⟩

end Workspace

/-! ## The machine -/

namespace Installation

variable {path : Path} {found : Option Installed}

theorem unusable_result {message : Symbols} (h : (unusable message).result = .ok found) :
    found = none :=
  (Except.ok.inj h).symm

/-- What an executable says of itself has been checked. -/
theorem isUsable_of_ofOutput {output : String} (h : (ofOutput path output).result = .ok found) :
    ∀ i ∈ found, IsUsable i.version := by
  unfold ofOutput at h
  dsimp only at h
  split at h
  · rw [unusable_result h]
    simp
  · obtain ⟨valid, hvalid, h⟩ := result_bind_eq_ok_iff.mp h
    rw [result_lift] at hvalid
    cases valid with
    | true =>
      obtain ⟨-, -, h⟩ := result_bind_eq_ok_iff.mp h
      obtain rfl := Except.ok.inj h
      rintro i hi
      obtain rfl := Option.some.inj hi
      exact hvalid
    | false =>
      rw [unusable_result h]
      simp

theorem isUsable_of_detect {machine : Machine} {executable : Symbols}
    (h : (detect machine executable).result = .ok found) : ∀ i ∈ found, IsUsable i.version := by
  have hnone : found = none → ∀ i ∈ found, IsUsable i.version := by
    rintro rfl
    simp
  unfold detect at h
  split at h
  · exact hnone (unusable_result h)
  · unfold ofReply at h
    split at h
    · split at h
      · exact isUsable_of_ofOutput h
      · exact hnone (unusable_result h)
    · contradiction
    · exact hnone (unusable_result h)
    · exact hnone (unusable_result h)
    · contradiction

theorem exists_detect_of_observe {machine : Machine} {executable : Symbols} {o : Observation}
    (h : (observe machine executable).result = .ok o) :
    ∃ found, (detect machine executable).result = .ok found ∧
      o = .ofOption (found.map Installed.version) := by
  obtain ⟨found, hfound, h⟩ := result_bind_eq_ok_iff.mp h
  exact ⟨found, hfound, (Except.ok.inj h).symm⟩

end Installation

end ToolchainChoice
