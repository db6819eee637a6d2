import ToolchainChoice.Proofs.CommandLine.RangeSafety
import ToolchainChoice.Proofs.Config.Failures
import ToolchainChoice.Proofs.Files.RealPath

/-!
# What a configuration can do to a run

A run reads one configuration before it does anything else. If that fails, the run ends with the failure: with
the code one if it has a message of its own, and with the failure itself otherwise.
-/
namespace ToolchainChoice

open Files (Path Disk)
open Config (Settings IsReported Escapes IsEscapeKind)
open Traced

namespace CommandLine

variable {s : Surroundings} {o : Options} {disk : Disk} {root path : Path} {command : Command}
variable {e : Failure}

/-! ## The configuration that is read -/

/-- The root of the workspace, as a command takes it. -/
def rootFor (o : Options) (disk : Disk) : Command → Except Failure Path
  | .identify _ => do
    let path ← pathOf o.root
    disk.resolve path
  | .decide _ _ => pathOf o.root

/-- The configuration of the workspace at `root` is looked for at this path. -/
inductive Consults (o : Options) (root : Path) : Path → Prop
  | asked {path : Path} (h : o.config = some (.value path)) : Consults o root path
  | usual (h : o.config = none) : Consults o root (root.child Config.fileName)

theorem settingsFor_of_rootFor (h : rootFor o disk command = .ok root) :
    settingsFor o disk command = (o.load disk root).result := by
  cases command with
  | identify folder =>
    obtain ⟨path, hpath, hroot⟩ := except_bind_eq_ok_iff.mp h
    unfold settingsFor
    rw [hpath]
    change (disk.resolve path >>= fun root => (o.load disk root).result) = (o.load disk root).result
    rw [hroot]
    rfl
  | decide declared installed =>
    unfold settingsFor
    change pathOf o.root = .ok root at h
    rw [h]
    rfl

theorem load_of_consults {entry : Files.Entry} (h : Consults o root path)
    (hentry : disk.entryAt? path = .ok (some entry)) :
    (o.load disk root).result = Config.settingsAt disk path := by
  unfold Options.load
  cases h with
  | asked h =>
    rw [h]
    rfl
  | usual h =>
    rw [h]
    dsimp only
    unfold Config.load
    dsimp only
    rw [hentry]
    exact result_bind_of_ok rfl

/-! ## The end of the run -/

/-- A run that fails ends with the code one if there is a message to be shown. -/
theorem conclude_result_of_failure {run : Traced Unit} (h : run.result = .error e)
    (hother : e ≠ .interrupted) :
    (conclude run).result = if e.message?.isSome then .ok 1 else .error e := by
  unfold conclude
  rw [h]
  dsimp only
  rw [if_neg hother]
  cases e.message? <;> rfl

theorem perform_result_of_settingsFor (h : settingsFor o disk command = .error e) :
    (perform s o disk command).2.result = .error e := by
  cases command with
  | decide declared installed =>
    rcases except_bind_eq_error_iff.mp h with hroot | ⟨root, hroot, hload⟩
    · exact result_bind_of_error hroot
    · exact (result_bind_of_ok hroot).trans (result_bind_of_error hload)
  | identify folder =>
    have hprepare : (prepare o folder disk).result = .error e := by
      rcases except_bind_eq_error_iff.mp h with hpath | ⟨path, hpath, h⟩
      · exact result_bind_of_error hpath
      · rcases except_bind_eq_error_iff.mp h with hroot | ⟨root, hroot, hload⟩
        · exact (result_bind_of_ok hpath).trans (result_bind_of_error hroot)
        · exact (result_bind_of_ok hpath).trans
            ((result_bind_of_ok hroot).trans (result_bind_of_error hload))
    unfold perform identifyWorkspace
    dsimp only
    rw [hprepare]

theorem run_exit_of_settingsFor {texts : List String}
    (hread : Options.read (.ofRoot disk.here) texts = .ok o) (hcommand : o.command = some command)
    (h : settingsFor o disk command = .error e) (hother : e ≠ .interrupted) :
    (run s texts disk).exit = if e.message?.isSome then .ok 1 else .error e := by
  rw [run_of_read hread hcommand]
  exact conclude_result_of_failure (perform_result_of_settingsFor h) hother

/-- **Failures of a configuration.** Reading what stands at the path of a configuration gives settings,
reports a problem of the configuration, or fails with one of the failures that escape, which are known
exactly. A run that consults the path ends with the code one if the failure has a message, and with the
failure itself otherwise. -/
theorem configuration_failures (disk : Disk) (path : Path) (entry : Files.Entry)
    (hentry : disk.entryAt? path = .ok (some entry)) :
    (∀ e, Config.settingsAt disk path = .error e ∧ ¬ IsReported e ↔ Escapes entry e) ∧
      (∀ e, Escapes entry e → IsEscapeKind e) ∧
      ∀ (s : Surroundings) (texts : List String) (o : Options) (command : Command) (root : Path),
        Options.read (.ofRoot disk.here) texts = .ok o → o.command = some command →
        rootFor o disk command = .ok root → Consults o root path →
        ∀ e, Config.settingsAt disk path = .error e →
          (run s texts disk).exit = if e.message?.isSome then .ok 1 else .error e := by
  refine ⟨fun e => Config.settingsAt_eq_error_iff hentry, fun e => Escapes.kind, ?_⟩
  intro s texts o command root hread hcommand hroot hconsults e he
  have hsettings : settingsFor o disk command = .error e := by
    rw [settingsFor_of_rootFor hroot, load_of_consults hconsults hentry]
    exact he
  refine run_exit_of_settingsFor hread hcommand hsettings ?_
  by_cases hreported : IsReported e
  · obtain ⟨problem, rfl⟩ := hreported
    nofun
  · exact ((Config.settingsAt_eq_error_iff hentry).mp ⟨he, hreported⟩).kind.ne_interrupted

/-! ## Configurations that escape -/

/-- A workspace with a folder where its configuration is looked for. -/
def folderDisk : Disk := ⟨.folder [(Config.fileName, .empty)], []⟩

theorem entryAt?_folderDisk :
    folderDisk.entryAt? ((Path.ofRoot []).child Config.fileName) = .ok (some .empty) := by
  have hplace : Files.follow folderDisk.root true Files.linkLimit [Config.fileName] [] =
      .ok (.entry [Config.fileName] .empty) := by
    rw [Files.follow]
    rfl
  have hfollow : Files.follow folderDisk.root true Files.linkLimit [] [Config.fileName] =
      .ok (.entry [Config.fileName] .empty) := by
    rw [Files.follow]
    exact hplace
  exact Disk.entryAt?_of_follow rfl (by decide) hfollow

theorem decide_fails_in_folderDisk :
    ∃ o command, Options.read (.ofRoot folderDisk.here) ["decide"] = .ok o ∧ o.command = some command ∧
      rootFor o folderDisk command = .ok (.ofRoot []) ∧
      Consults o (.ofRoot []) ((Path.ofRoot []).child Config.fileName) ∧
      Config.settingsAt folderDisk ((Path.ofRoot []).child Config.fileName) = .error .isDirectory ∧
      (run bare ["decide"] folderDisk).exit = .error .isDirectory := by
  obtain ⟨hescapes, -, hexit⟩ :=
    configuration_failures folderDisk ((Path.ofRoot []).child Config.fileName) .empty entryAt?_folderDisk
  obtain ⟨hfails, -⟩ := (hescapes .isDirectory).mpr (.noFile nofun)
  let o : Options := { root := .value (.ofRoot []), command := some (.decide none none) }
  have hread : Options.read (.ofRoot folderDisk.here) ["decide"] = .ok o := rfl
  exact ⟨o, _, hread, rfl, rfl, .usual rfl, hfails,
    hexit bare ["decide"] o _ _ hread rfl rfl (.usual rfl) _ hfails⟩

/-- The result is this failure. A result that holds settings has no decidable equality, so the texts below
are evaluated through this check. -/
def failsWith {α : Type} (e : Failure) : Except Failure α → Bool
  | .ok _ => false
  | .error e' => e' == e

theorem eq_error_of_failsWith {α : Type} {x : Except Failure α} (h : failsWith e x = true) :
    x = .error e := by
  cases x with
  | ok a => contradiction
  | error e' => rw [eq_of_beq h]

/-- A folder, an octet that begins no character, a month that no year has, and an Arabic digit in a bound:
none of them is reported as a problem of the configuration. -/
theorem configurations_that_escape :
    Config.settingsAt folderDisk ((Path.ofRoot []).child Config.fileName) = .error .isDirectory ∧
      Settings.ofContent ⟨#[0xFF]⟩ = .error .notUtf8 ∧
      Settings.ofContent "version: 2001-13-01\n".toUTF8 = .error .noSuchMoment ∧
      Settings.ofContent "supported_range:\n  max: \"1.٣\"\n".toUTF8 =
        .error (.invalidVersion "'1.٣'") ∧
      ∀ e ∈ [.isDirectory, .notUtf8, .noSuchMoment, .invalidVersion "'1.٣'"], ¬ IsReported e := by
  refine ⟨?_, ?_, ?_, ?_, ?_⟩
  · unfold Config.settingsAt
    rw [entryAt?_folderDisk]
    rfl
  · exact eq_error_of_failsWith (by decide +kernel)
  · exact eq_error_of_failsWith (by decide +kernel)
  · exact eq_error_of_failsWith (by decide +kernel)
  · rintro e he ⟨problem, rfl⟩
    simp at he

end CommandLine

end ToolchainChoice
