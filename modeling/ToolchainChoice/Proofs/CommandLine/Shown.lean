import ToolchainChoice.Proofs.CommandLine.Output
import ToolchainChoice.Proofs.Diagnostics.Delivery

/-!
# What a command comes to

Either command fails and shows nothing, or it comes to the report of an advice under the settings
that it has loaded: every step before the report is silent. One that fails before the report leaves
the disk as it is as well, since only a sink writes to the disk, and it fails only where it has not.
Whether the report itself succeeds is up to the stream.
-/
namespace ToolchainChoice

open Files (Path Disk)
open Config (Settings)
open Diagnostics (Sink)
open Log.Record (IsRemark)
open Traced

variable {s : Surroundings} {settings : Settings} {sink : Sink} {disk : Disk} {survey : Survey}
variable {advice : Advice} {workspace : Traced Observation}

theorem Advisor.advise_disk_of_error {a : Advisor} {now : Calendar.Moment} {e : Failure}
    (h : (a.advise now survey disk).trace.result = .error e) :
    (a.advise now survey disk).disk = disk := by
  unfold advise at h ⊢
  dsimp only at h ⊢
  cases hc : (a.consider survey).result with
  | error f => rfl
  | ok advice =>
    rw [hc] at h
    dsimp only at h ⊢
    rw [result_bind_of_ok hc] at h
    cases hemit : (a.sink.emit now advice.diagnostic disk).trace.result with
    | error f => exact Sink.emit_disk_of_error hemit
    | ok u =>
      rw [result_bind_of_ok hemit] at h
      contradiction

/-- A run up to the announcement; the stream has no part in it. -/
def Surroundings.deliberate (s : Surroundings) (settings : Settings) (sink : Sink)
    (workspace : Traced Observation) (survey : Survey) (disk : Disk) : Traced Advice := do
  let _ ← s.survey settings workspace
  ((settings.advisor sink).advise s.now survey disk).trace

theorem identify_of_survey (hsurvey : (s.survey settings workspace).result = .ok survey) :
    s.identify settings sink workspace disk =
      ⟨((settings.advisor sink).advise s.now survey disk).sink,
        ((settings.advisor sink).advise s.now survey disk).disk, do
        let advice ← s.deliberate settings sink workspace survey disk
        s.announce settings sink advice
        return advice⟩ := by
  unfold Surroundings.identify Surroundings.deliberate
  dsimp only
  rw [hsurvey]
  dsimp only
  rw [bind_assoc]

theorem survey_remarks (s : Surroundings) (settings : Settings)
    (hw : workspace.LogsOnly IsRemark) : (s.survey settings workspace).LogsOnly IsRemark := by
  refine hw.bind fun declared => ?_
  refine (Installation.observe_remarks s.machine settings.executable).bind fun installed => ?_
  exact (remarks_log (by decide) (by decide)).bind fun _ => logsOnly_pure _

theorem deliberate_silent (s : Surroundings) (settings : Settings) (sink : Sink)
    (hw : workspace.LogsOnly IsRemark) (survey : Survey) (disk : Disk) :
    (s.deliberate settings sink workspace survey disk).Silent :=
  (survey_remarks s settings hw).silent.bind fun _ => Advisor.advise_silent ..

namespace CommandLine

variable {o : Options} {folder : Option Path} {root : Path}
variable {declared installed : Option (Argument String)}

/-- The settings that a command works with. Only one of the commands resolves the root first. -/
def settingsFor (o : Options) (disk : Disk) : Command → Except Failure Settings
  | .identify _ => do
    let path ← pathOf o.root
    let root ← disk.resolve path
    (o.load disk root).result
  | .decide _ _ => do
    let root ← pathOf o.root
    (o.load disk root).result

/-- The environment for an advice, as a last step. -/
def reporting (s : Surroundings) (settings : Settings) (advice : Advice) : Traced Unit := do
  let _ ← report s.stream advice.version settings.toolchain.key

theorem reporting_congr {settings' : Settings} (h : settings.toolchain = settings'.toolchain) :
    reporting s settings advice = reporting s settings' advice := by
  unfold reporting
  rw [h]

/-! ## Versions that are given -/

theorem decideGiven_shown {d i : Observation}
    (hsettings : settingsFor o disk (.decide declared installed) = .ok settings)
    (hd : (given declared).result = .ok d) (hi : (given installed).result = .ok i)
    (hadvice : advise settings.range settings.toolchain ⟨d, i⟩ = .ok advice) :
    (decideGiven s o declared installed disk).shown = (reporting s settings advice).shown := by
  obtain ⟨root, hroot, hload⟩ := except_bind_eq_ok_iff.mp hsettings
  have hadvise : ((settings.advisor .standardLog).advise s.now ⟨d, i⟩ disk).trace.result =
      .ok advice := by
    rw [Advisor.advise_result (settings.advisor .standardLog) s.now ⟨d, i⟩ disk fun _ => rfl]
    exact hadvice
  unfold decideGiven
  refine ((silent_lift (pathOf o.root)).shown_bind hroot).trans ?_
  refine ((load_silent o disk root).shown_bind hload).trans ?_
  refine ((given_silent declared).shown_bind hd).trans ?_
  refine ((given_silent installed).shown_bind hi).trans ?_
  exact (Advisor.advise_silent ..).shown_bind hadvise

/-- To decide for given versions is to fail at some step or to report the advice on them. -/
theorem decideGiven_cases (s : Surroundings) (o : Options)
    (declared installed : Option (Argument String)) (disk : Disk) :
    (∃ e, (decideGiven s o declared installed disk).shown = (.error e, "")) ∨
      ∃ settings survey advice, settingsFor o disk (.decide declared installed) = .ok settings ∧
        advise settings.range settings.toolchain survey = .ok advice ∧
        (decideGiven s o declared installed disk).shown = (reporting s settings advice).shown := by
  unfold decideGiven
  rcases (silent_lift (pathOf o.root)).shown_bind_cases _ with hfail | ⟨root, hroot, hshown⟩
  · exact .inl hfail
  rw [hshown]
  rcases (load_silent o disk root).shown_bind_cases _ with hfail | ⟨settings, hload, hshown⟩
  · exact .inl hfail
  rw [hshown]
  rcases (given_silent declared).shown_bind_cases _ with hfail | ⟨d, -, hshown⟩
  · exact .inl hfail
  rw [hshown]
  rcases (given_silent installed).shown_bind_cases _ with hfail | ⟨i, -, hshown⟩
  · exact .inl hfail
  rw [hshown]
  rcases (Advisor.advise_silent (settings.advisor .standardLog) s.now ⟨d, i⟩ disk).shown_bind_cases
    fun advice => reporting s settings advice with hfail | ⟨advice, hadvise, hshown⟩
  · exact .inl hfail
  · have hsettings : settingsFor o disk (.decide declared installed) = .ok settings :=
      except_bind_eq_ok_iff.mpr ⟨root, hroot, hload⟩
    have hadvice := Advisor.advise_of_result (a := settings.advisor .standardLog) hadvise
    exact .inr ⟨settings, ⟨d, i⟩, advice, hsettings, hadvice, hshown⟩

/-! ## The workspace -/

theorem announce_shown :
    (s.announce settings sink advice).shown = (reporting s settings advice).shown := by
  unfold Surroundings.announce
  split
  · exact (silent_log ..).shown_bind rfl
  · rfl

theorem identify_shown (hw : workspace.LogsOnly IsRemark)
    (hsurvey : (s.survey settings workspace).result = .ok survey)
    (hadvise : ((settings.advisor sink).advise s.now survey disk).trace.result = .ok advice) :
    ((s.identify settings sink workspace disk).trace >>= fun _ => pure ()).shown =
      (reporting s settings advice).shown := by
  have hsilent := deliberate_silent s settings sink hw survey disk
  have hresult : (s.deliberate settings sink workspace survey disk).result = .ok advice :=
    (result_bind_of_ok hsurvey).trans hadvise
  rw [identify_of_survey hsurvey, bind_assoc, hsilent.shown_bind hresult, bind_assoc]
  simp only [pure_bind, bind_pure_unit]
  exact announce_shown

/-- A run fails and leaves the disk as it is, or reports the advice on some survey. -/
theorem identify_cases (s : Surroundings) (settings : Settings) (sink : Sink)
    (hw : workspace.LogsOnly IsRemark) (disk : Disk) :
    (∃ e, ((s.identify settings sink workspace disk).trace >>= fun _ => pure ()).shown =
          (.error e, "") ∧
        (s.identify settings sink workspace disk).disk = disk) ∨
      ∃ survey advice, advise settings.range settings.toolchain survey = .ok advice ∧
        ((s.identify settings sink workspace disk).trace >>= fun _ => pure ()).shown =
          (reporting s settings advice).shown := by
  cases hsurvey : (s.survey settings workspace).result with
  | error e =>
    have hsilent := (survey_remarks s settings hw).silent
    unfold Surroundings.identify
    dsimp only
    rw [hsurvey]
    exact .inl ⟨e, (hsilent.failing e).shown_bind_of_error rfl, rfl⟩
  | ok survey =>
    have hsilent := deliberate_silent s settings sink hw survey disk
    cases hadvise : ((settings.advisor sink).advise s.now survey disk).trace.result with
    | ok advice =>
      have hadvice := Advisor.advise_of_result (a := settings.advisor sink) hadvise
      exact .inr ⟨survey, advice, hadvice, identify_shown hw hsurvey hadvise⟩
    | error e =>
      have hresult : (s.deliberate settings sink workspace survey disk).result = .error e :=
        (result_bind_of_ok hsurvey).trans hadvise
      rw [identify_of_survey hsurvey, bind_assoc]
      exact .inl ⟨e, hsilent.shown_bind_of_error hresult, Advisor.advise_disk_of_error hadvise⟩

theorem prepare_silent (o : Options) (folder : Option Path) (disk : Disk) :
    (prepare o folder disk).Silent := by
  refine (silent_lift _).bind fun path => ?_
  refine (silent_lift _).bind fun root => ?_
  refine (load_silent o disk root).bind fun settings => ?_
  exact (silent_log ..).bind fun _ => silent_pure _

/-- The folder that a command line asks for is all that may differ from the settings. -/
theorem exists_settings_of_prepare (h : (prepare o folder disk).result = .ok (root, settings)) :
    ∃ loaded, settingsFor o disk (.identify folder) = .ok loaded ∧
      settings = { loaded with directory := settings.directory } := by
  obtain ⟨path, hpath, h⟩ := result_bind_eq_ok_iff.mp h
  obtain ⟨root', hroot, h⟩ := result_bind_eq_ok_iff.mp h
  obtain ⟨loaded, hloaded, h⟩ := result_bind_eq_ok_iff.mp h
  obtain ⟨u, -, h⟩ := result_bind_eq_ok_iff.mp h
  refine ⟨loaded, ?_, ?_⟩
  · exact except_bind_eq_ok_iff.mpr ⟨path, hpath, except_bind_eq_ok_iff.mpr ⟨root', hroot, hloaded⟩⟩
  · have hsettings := congrArg Prod.snd (Except.ok.inj h)
    cases folder with
    | none =>
      obtain rfl : loaded = settings := hsettings
      rfl
    | some folder =>
      obtain rfl : { loaded with directory := some folder.text } = settings := hsettings
      rfl

theorem identifyWorkspace_shown (hprepare : (prepare o folder disk).result = .ok (root, settings)) :
    (identifyWorkspace s o folder disk).2.shown =
      ((s.identify settings settings.sink (Workspace.observe disk root) disk).trace >>=
        fun _ => pure ()).shown := by
  unfold identifyWorkspace
  dsimp only
  rw [hprepare]
  dsimp only
  exact (prepare_silent o folder disk).shown_bind hprepare

theorem identifyWorkspace_cases (s : Surroundings) (o : Options) (folder : Option Path)
    (disk : Disk) :
    (∃ e, (identifyWorkspace s o folder disk).2.shown = (.error e, "") ∧
        (identifyWorkspace s o folder disk).1 = disk) ∨
      ∃ settings survey advice, settingsFor o disk (.identify folder) = .ok settings ∧
        advise settings.range settings.toolchain survey = .ok advice ∧
        (identifyWorkspace s o folder disk).2.shown = (reporting s settings advice).shown := by
  have hsilent := prepare_silent o folder disk
  cases hprepare : (prepare o folder disk).result with
  | error e =>
    unfold identifyWorkspace
    dsimp only
    rw [hprepare]
    exact .inl ⟨e, Prod.ext rfl (hsilent.failing e).output_eq, rfl⟩
  | ok prepared =>
    obtain ⟨root, settings⟩ := prepared
    obtain ⟨loaded, hloaded, hsettings⟩ := exists_settings_of_prepare hprepare
    have hrange : settings.range = loaded.range := by rw [hsettings]
    have htoolchain : settings.toolchain = loaded.toolchain := by rw [hsettings]
    have hdisk : (identifyWorkspace s o folder disk).1 =
        (s.identify settings settings.sink (Workspace.observe disk root) disk).disk := by
      unfold identifyWorkspace
      dsimp only
      rw [hprepare]
    rw [identifyWorkspace_shown hprepare, hdisk]
    rcases identify_cases s settings settings.sink (Workspace.observe_remarks disk root) disk with
      hfail | ⟨survey, advice, hadvice, hshown⟩
    · exact .inl hfail
    · rw [hrange, htoolchain] at hadvice
      exact .inr ⟨loaded, survey, advice, hloaded, hadvice,
        hshown.trans (congrArg shown (reporting_congr htoolchain))⟩

/-! ## Every command -/

/-- A command fails silently, with the disk as it was, or reports an advice under its settings. -/
theorem perform_cases (s : Surroundings) (o : Options) (disk : Disk) (command : Command) :
    (∃ e, (perform s o disk command).2.shown = (.error e, "") ∧
        (perform s o disk command).1 = disk) ∨
      ∃ settings survey advice, settingsFor o disk command = .ok settings ∧
        advise settings.range settings.toolchain survey = .ok advice ∧
        (perform s o disk command).2.shown = (reporting s settings advice).shown := by
  cases command with
  | identify folder => exact identifyWorkspace_cases s o folder disk
  | decide declared installed =>
    rcases decideGiven_cases s o declared installed disk with ⟨e, hfail⟩ | hreports
    · exact .inl ⟨e, hfail, rfl⟩
    · exact .inr hreports

/-! ## The end of a run -/

theorem conclude_result_eq_zero_iff {run : Traced Unit} :
    (conclude run).result = .ok 0 ↔ run.result = .ok () := by
  unfold conclude
  cases hrun : run.result with
  | ok u => simp
  | error e =>
    dsimp only
    split
    · simp [interruptedCode]
    · split <;> simp

theorem runCommand_exit_eq_zero_iff {command : Command} :
    (runCommand s o command disk).exit = .ok 0 ↔
      (perform s o disk command).2.result = .ok () :=
  conclude_result_eq_zero_iff

theorem run_of_read {texts : List String} {command : Command}
    (h : Options.read (.ofRoot disk.here) texts = .ok o) (hc : o.command = some command) :
    run s texts disk = runCommand s o command disk := by
  unfold run
  rw [h]
  dsimp only
  rw [hc]

end CommandLine

end ToolchainChoice
