import ToolchainChoice.Proofs.CommandLine.Composition
import ToolchainChoice.Proofs.CommandLine.RangeSafety
import ToolchainChoice.Proofs.Files.RealPath
import ToolchainChoice.Proofs.Identification.Usable
import ToolchainChoice.Proofs.Version.Beginning
import ToolchainChoice.Proofs.Version.Texts

/-!
# The two commands agree

A run that identifies the environment finds a version in the workspace, or none, and one on the
machine, or none. To decide for these versions behind the same options shows the same environment.

One of the commands resolves the root of the workspace before it looks for the configuration and the
other does not, so the configuration has to be the same from both. What is logged is not compared,
and neither are the diagnostics.
-/
namespace ToolchainChoice

open Files (Path Disk)
open Config (Settings)
open Diagnostics (Sink)
open Traced

/-! ## The configuration -/

/-- Nothing but the configuration file decides which settings are loaded. -/
theorem Config.load_result_congr {disk : Disk} {path root : Path}
    (h : disk.entryAt? (path.child fileName) = disk.entryAt? (root.child fileName)) :
    (load disk path none).result = (load disk root none).result := by
  unfold load
  dsimp only
  rw [h]
  cases hentry : disk.entryAt? (root.child fileName) with
  | error fault => rfl
  | ok entry =>
    cases entry with
    | none => rfl
    | some entry =>
      have hat : settingsAt disk (path.child fileName) = settingsAt disk (root.child fileName) := by
        unfold settingsAt
        rw [h, hentry]
        cases entry <;> rfl
      exact hat

namespace CommandLine

variable {s : Surroundings} {o : Options} {disk : Disk} {settings : Settings} {sink : Sink}
variable {folder : Option Path} {path root : Path} {advice : Advice}

/-- When the configuration is the same from the root that is asked for and from what the root resolves
to. -/
inductive SeesSameConfiguration (o : Options) (disk : Disk) : Prop
  /-- Another file is asked for. -/
  | asked (h : o.config ≠ none)
  /-- The system finds a folder at the root, the configuration in it is no link, and no path is too
  long. There may be links on the way to the folder. -/
  | found {path : Path} {place : Files.Place} {entries : List (String × Files.Entry)}
      (hhere : Files.IsReal disk.root disk.here) (hpath : pathOf o.root = .ok path)
      (hfind : disk.find path = .ok (.entry place (.folder entries)))
      (hplain : ∀ target, entries.lookup Config.fileName ≠ some (.link target))
      (hnul : (Path.ofRoot place).hasNul = false)
      (hlong : (path.child Config.fileName).text.utf8ByteSize ≤ Files.pathLimit)
      (hlong' : ((Path.ofRoot place).child Config.fileName).text.utf8ByteSize ≤ Files.pathLimit)
  /-- The file in the folder, or that there is none, looks the same from both. -/
  | same (h : ∀ path root, pathOf o.root = .ok path → disk.resolve path = .ok root →
      disk.entryAt? (path.child Config.fileName) = disk.entryAt? (root.child Config.fileName))

/-- Where the workspace is the current folder there is nothing to be resolved. -/
theorem seesSameConfiguration_of_here (hhere : Files.IsReal disk.root disk.here)
    (hnul : (Path.ofRoot disk.here).hasNul = false) (hroot : o.root = .value (.ofRoot disk.here)) :
    SeesSameConfiguration o disk := by
  refine .same fun path root hpath hresolve => ?_
  rw [hroot] at hpath
  obtain rfl := Except.ok.inj hpath
  rw [Disk.resolve_here hhere hnul] at hresolve
  obtain rfl := Except.ok.inj hresolve
  rfl

theorem hasNul_of_resolve (h : disk.resolve path = .ok root) : path.hasNul = false := by
  cases hnul : path.hasNul with
  | false => rfl
  | true =>
    unfold Disk.resolve at h
    rw [hnul, if_pos rfl] at h
    contradiction

/-- In each case the system finds the same file, unless another one is asked for. -/
theorem SeesSameConfiguration.entryAt?_eq (h : SeesSameConfiguration o disk)
    (hconfig : o.config = none) (hpath : pathOf o.root = .ok path)
    (hresolve : disk.resolve path = .ok root) :
    disk.entryAt? (path.child Config.fileName) = disk.entryAt? (root.child Config.fileName) := by
  cases h with
  | asked h => exact absurd hconfig h
  | same h => exact h path root hpath hresolve
  | found hhere hpath' hfind hplain hnul hlong hlong' =>
    obtain rfl := except_ok_unique hpath hpath'
    have hpnul := hasNul_of_resolve hresolve
    obtain rfl := except_ok_unique (Disk.resolve_of_find hpnul hfind) hresolve
    have hstep : Files.IsStep Config.fileName := ⟨rfl, by decide⟩
    exact Disk.entryAt?_child_eq hhere hfind hstep (by decide) hplain (hpnul.trans hnul.symm) hlong
      hlong'

theorem settingsFor_decide_of_identify {declared installed : Option (Argument String)}
    (h : SeesSameConfiguration o disk)
    (hsettings : settingsFor o disk (.identify folder) = .ok settings) :
    settingsFor o disk (.decide declared installed) = .ok settings := by
  obtain ⟨path, hpath, hresolve⟩ := except_bind_eq_ok_iff.mp hsettings
  obtain ⟨root, hroot, hload⟩ := except_bind_eq_ok_iff.mp hresolve
  have hsame : (o.load disk path).result = (o.load disk root).result := by
    unfold Options.load
    cases hconfig : o.config with
    | none => exact Config.load_result_congr (h.entryAt?_eq hconfig hpath hroot)
    | some config =>
      -- the file that is asked for is the same from everywhere
      cases pathOf config <;> rfl
  exact except_bind_eq_ok_iff.mpr ⟨path, hpath, hsame.trans hload⟩

/-! ## Versions that have been found -/

/-- A version that can be read can stand in a command line and is accepted there. -/
theorem isArgument_of_isUsable {version : String} (h : IsUsable version) : IsArgument version := by
  obtain ⟨v, hv⟩ := Version.isValid_eq_true_iff.mp h
  exact Version.head?_ne_hyphen hv

theorem given_result {version : Option String} (h : ∀ v ∈ version, IsUsable v) :
    (given (version.map .value)).result = .ok (.ofOption version) := by
  cases version with
  | none => rfl
  | some text =>
    obtain ⟨v, hv⟩ := Version.isValid_eq_true_iff.mp (h text rfl)
    have hrequire : Version.require text = .ok v := by
      unfold Version.require
      rw [hv]
    exact result_bind_of_ok hrequire

/-- What a run that identifies the environment finds before it decides. -/
structure Findings (s : Surroundings) (o : Options) (folder : Option Path) (disk : Disk) where
  root : Path
  settings : Settings
  declared : Option Workspace.Requirement
  installed : Option Installation.Installed
  prepare_result : (prepare o folder disk).result = .ok (root, settings)
  requirement_result : (Workspace.requirement disk root).result = .ok declared
  detect_result : (Installation.detect s.machine settings.executable).result = .ok installed

namespace Findings

variable (f : Findings s o folder disk)

def declaredVersion : Option String := f.declared.map Workspace.Requirement.version

def installedVersion : Option String := f.installed.map Installation.Installed.version

def survey : Survey := ⟨.ofOption f.declaredVersion, .ofOption f.installedVersion⟩

theorem isUsable_declaredVersion : ∀ v ∈ f.declaredVersion, IsUsable v := by
  rintro v hv
  obtain ⟨r, hr, rfl⟩ := Option.map_eq_some_iff.mp hv
  exact Workspace.isUsable_of_requirement f.requirement_result r hr

theorem isUsable_installedVersion : ∀ v ∈ f.installedVersion, IsUsable v := by
  rintro v hv
  obtain ⟨i, hi, rfl⟩ := Option.map_eq_some_iff.mp hv
  exact Installation.isUsable_of_detect f.detect_result i hi

/-- The command to decide for both versions, where one that is missing is not given. -/
def command : Command :=
  .decide (f.declaredVersion.map .value) (f.installedVersion.map .value)

def words : List String := "decide" :: versionWords f.declaredVersion f.installedVersion

theorem read_words {here : Path} {globals : List String} {common : Options}
    (h : Options.read here globals = .ok common) (hc : common.command = none) :
    Options.read here (globals ++ f.words) = .ok { common with command := some f.command } :=
  read_versionWords h hc
    (fun v hv => isArgument_of_isUsable (f.isUsable_declaredVersion v hv))
    (fun v hv => isArgument_of_isUsable (f.isUsable_installedVersion v hv))

end Findings

/-! ## Agreement -/

theorem exists_survey_of_identify {workspace : Traced Observation}
    (h : (s.identify settings sink workspace disk).trace.result = .ok advice) :
    ∃ survey, (s.survey settings workspace).result = .ok survey ∧
      ((settings.advisor sink).advise s.now survey disk).trace.result = .ok advice := by
  unfold Surroundings.identify at h
  dsimp only at h
  split at h
  · contradiction
  · rename_i survey hsurvey
    obtain ⟨-, -, h⟩ := result_bind_eq_ok_iff.mp h
    obtain ⟨advice', hadvise, h⟩ := result_bind_eq_ok_iff.mp h
    obtain ⟨-, -, h⟩ := result_bind_eq_ok_iff.mp h
    obtain rfl : advice' = advice := Except.ok.inj h
    exact ⟨survey, hsurvey, hadvise⟩

/-- A run that identifies the environment and succeeds has found all that it decides on, and shows
the environment for the advice on that. -/
theorem exists_findings_of_identifyWorkspace
    (h : (identifyWorkspace s o folder disk).2.result = .ok ()) :
    ∃ (f : Findings s o folder disk) (advice : Advice),
      advise f.settings.range f.settings.toolchain f.survey = .ok advice ∧
      (identifyWorkspace s o folder disk).2.shown = (reporting s f.settings advice).shown := by
  unfold identifyWorkspace at h
  dsimp only at h
  split at h
  · contradiction
  · rename_i root settings hprepare
    obtain ⟨-, -, h⟩ := result_bind_eq_ok_iff.mp h
    obtain ⟨advice, hidentify, -⟩ := result_bind_eq_ok_iff.mp h
    obtain ⟨survey, hsurvey, hadvise⟩ := exists_survey_of_identify hidentify
    have hshown := (identifyWorkspace_shown hprepare).trans
      (identify_shown (Workspace.observe_remarks disk root) hsurvey hadvise)
    obtain ⟨d, hd, hsurvey⟩ := result_bind_eq_ok_iff.mp hsurvey
    obtain ⟨i, hi, hsurvey⟩ := result_bind_eq_ok_iff.mp hsurvey
    obtain ⟨-, -, hsurvey⟩ := result_bind_eq_ok_iff.mp hsurvey
    obtain rfl := Except.ok.inj hsurvey
    obtain ⟨declared, hdeclared, rfl⟩ := Workspace.exists_requirement_of_observe hd
    obtain ⟨installed, hinstalled, rfl⟩ := Installation.exists_detect_of_observe hi
    exact ⟨⟨root, settings, declared, installed, hprepare, hdeclared, hinstalled⟩, advice,
      Advisor.advise_of_result (a := settings.advisor settings.sink) hadvise, hshown⟩

theorem exists_findings_perform_shown (hsees : SeesSameConfiguration o disk)
    (h : (identifyWorkspace s o folder disk).2.result = .ok ()) :
    ∃ f : Findings s o folder disk,
      (perform s o disk f.command).2.shown = (perform s o disk (.identify folder)).2.shown := by
  obtain ⟨f, advice, hadvice, hshown⟩ := exists_findings_of_identifyWorkspace h
  obtain ⟨loaded, hloaded, hsettings⟩ := exists_settings_of_prepare f.prepare_result
  have hrange : f.settings.range = loaded.range := by rw [hsettings]
  have htoolchain : f.settings.toolchain = loaded.toolchain := by rw [hsettings]
  have hreporting : reporting s loaded advice = reporting s f.settings advice :=
    reporting_congr htoolchain.symm
  rw [hrange, htoolchain] at hadvice
  refine ⟨f, ?_⟩
  change _ = (identifyWorkspace s o folder disk).2.shown
  rw [hshown, ← hreporting]
  exact decideGiven_shown (settingsFor_decide_of_identify hsees hloaded)
    (given_result f.isUsable_declaredVersion) (given_result f.isUsable_installedVersion) hadvice

/-- **Agreement.** Whenever a command line that identifies the environment ends with the code zero,
to decide for the versions that have been found, behind the same options of the program, ends with
the code zero too and shows the same. The configuration has to be the same for both; so it is if the
system finds the root as it was given, by way of links or not. -/
theorem decide_agrees_with_identify {texts : List String}
    (hread : Options.read (.ofRoot disk.here) texts = .ok o)
    (hcommand : o.command = some (.identify folder)) (hexit : (run s texts disk).exit = .ok 0)
    (hsees : SeesSameConfiguration o disk) :
    ∃ f : Findings s o folder disk,
      (∃ globals own, texts = globals ++ "identify-environment" :: own ∧
        Options.read (.ofRoot disk.here) globals = .ok { o with command := none }) ∧
      ∀ globals, Options.read (.ofRoot disk.here) globals = .ok { o with command := none } →
        (run s (globals ++ f.words) disk).exit = .ok 0 ∧
          (run s (globals ++ f.words) disk).output = (run s texts disk).output := by
  rw [run_of_read hread hcommand] at hexit ⊢
  have hidentify : (identifyWorkspace s o folder disk).2.result = .ok () :=
    runCommand_exit_eq_zero_iff.mp hexit
  obtain ⟨f, hshown⟩ := exists_findings_perform_shown hsees hidentify
  have hresult := congrArg Prod.fst hshown
  have houtput := congrArg Prod.snd hshown
  refine ⟨f, ?_, fun globals hglobals => ?_⟩
  · obtain ⟨globals, name, own, htexts, hglobals, hname⟩ := exists_command_of_read hread hcommand
    obtain rfl := name_of_readCommand_identify hname
    exact ⟨globals, own, htexts, hglobals⟩
  · rw [run_of_read (f.read_words hglobals rfl) rfl]
    exact ⟨runCommand_exit_eq_zero_iff.mpr (hresult.trans hidentify), houtput⟩

/-! ## A workspace with a bound -/

/-- A configuration that sets the greatest version. -/
def boundedFile : ByteArray := "supported_range:\n  max: \"1.15\"\n".toUTF8

/-- A workspace with that configuration and nothing else. -/
def boundedDisk : Disk := ⟨.folder [(Config.fileName, .file boundedFile)], []⟩

theorem exists_advice_of_boundedFile : ∃ settings advice,
    Config.Settings.ofContent boundedFile = .ok settings ∧ settings.directory = none ∧
      advise settings.range settings.toolchain ⟨.missing, .missing⟩ = .ok advice ∧
      advice.version = "1.15" ∧ settings.toolchain.key = "go" := by
  have hcontent : (Settings.ofContent boundedFile).toOption.map (fun settings =>
      (settings.directory,
        (advise settings.range settings.toolchain ⟨.missing, .missing⟩).toOption.map fun advice =>
          (advice.version, settings.toolchain.key))) = some (none, some ("1.15", ("go" : Symbols))) := by
    decide +kernel
  cases hsettings : Settings.ofContent boundedFile with
  | error e =>
    rw [hsettings] at hcontent
    contradiction
  | ok settings =>
    rw [hsettings] at hcontent
    obtain ⟨hdirectory, hadvice⟩ := Prod.mk.inj (Option.some.inj hcontent)
    cases hanswer : advise settings.range settings.toolchain ⟨.missing, .missing⟩ with
    | error e =>
      rw [hanswer] at hadvice
      contradiction
    | ok advice =>
      rw [hanswer] at hadvice
      obtain ⟨hversion, hkey⟩ := Prod.mk.inj (Option.some.inj hadvice)
      exact ⟨settings, advice, rfl, hdirectory, hanswer, hversion, hkey⟩

theorem requirement_boundedDisk :
    (Workspace.requirement boundedDisk (.ofRoot [])).result = .ok none := by
  have hfollow : Files.follow boundedDisk.root true Files.linkLimit [] [] =
      .ok (.entry [] boundedDisk.root) := by
    rw [Files.follow]
    rfl
  have hroot : boundedDisk.entryAt? (.ofRoot []) = .ok (some boundedDisk.root) :=
    Disk.entryAt?_of_follow rfl (by decide) hfollow
  have hfound : Workspace.manifestsIn boundedDisk (Workspace.walkStart (.ofRoot []))
      boundedDisk.root = [] := by
    decide +kernel
  have hshallow : Workspace.goesDeeper (Workspace.walkStart (.ofRoot [])) Workspace.walkDepth
      boundedDisk.root = false := by
    decide +kernel
  have hmanifests : (Workspace.manifests boundedDisk (.ofRoot [])).result = .ok [] := by
    unfold boundedDisk at hfound hshallow
    unfold Workspace.manifests
    rw [hroot]
    unfold boundedDisk
    dsimp only
    rw [hshallow, hfound]
    rfl
  exact (result_bind_of_ok hmanifests).trans rfl

theorem entryAt?_boundedDisk :
    boundedDisk.entryAt? ((Path.ofRoot []).child Config.fileName) =
      .ok (some (.file boundedFile)) := by
  have hplace : Files.follow boundedDisk.root true Files.linkLimit [Config.fileName] [] =
      .ok (.entry [Config.fileName] (.file boundedFile)) := by
    rw [Files.follow]
    rfl
  have hfollow : Files.follow boundedDisk.root true Files.linkLimit [] [Config.fileName] =
      .ok (.entry [Config.fileName] (.file boundedFile)) := by
    rw [Files.follow]
    exact hplace
  exact Disk.entryAt?_of_follow rfl (by decide) hfollow

/-- To identify the environment from the root of the workspace is to find the bound. -/
theorem exists_findings_boundedDisk (hconfig : o.config = none) (hpath : pathOf o.root = .ok path)
    (hroot : boundedDisk.resolve path = .ok (.ofRoot [])) :
    ∃ f : Findings bare o none boundedDisk, f.words = ["decide"] ∧
      (identifyWorkspace bare o none boundedDisk).2.shown =
        (.ok (), (environment "1.15" "go").encode) := by
  obtain ⟨settings, advice, hsettings, hdirectory, hadvice, hversion, hkey⟩ :=
    exists_advice_of_boundedFile
  have hload : (o.load boundedDisk (.ofRoot [])).result = .ok settings := by
    unfold Options.load Config.load Config.settingsAt
    rw [hconfig]
    dsimp only
    rw [entryAt?_boundedDisk]
    exact hsettings
  have hprepare : (prepare o none boundedDisk).result = .ok (.ofRoot [], settings) :=
    result_bind_eq_ok_iff.mpr ⟨path, hpath, result_bind_eq_ok_iff.mpr ⟨.ofRoot [], hroot,
      result_bind_eq_ok_iff.mpr ⟨settings, hload, rfl⟩⟩⟩
  have hsurvey : (bare.survey settings (Workspace.observe boundedDisk (.ofRoot []))).result =
      .ok ⟨.missing, .missing⟩ :=
    result_bind_eq_ok_iff.mpr ⟨.missing,
      result_bind_eq_ok_iff.mpr ⟨none, requirement_boundedDisk, rfl⟩, rfl⟩
  have hsink : settings.sink = .standardLog := by
    unfold Settings.sink
    rw [hdirectory]
  have hadvise : ((settings.advisor settings.sink).advise bare.now ⟨.missing, .missing⟩
      boundedDisk).trace.result = .ok advice := by
    rw [hsink, Advisor.advise_result (settings.advisor .standardLog) _ _ _ fun _ => rfl]
    exact hadvice
  refine ⟨⟨.ofRoot [], settings, none, none, hprepare, requirement_boundedDisk, rfl⟩, rfl, ?_⟩
  rw [identifyWorkspace_shown hprepare,
    identify_shown (Workspace.observe_remarks boundedDisk (.ofRoot [])) hsurvey hadvise]
  unfold reporting
  rw [hversion, hkey]
  rfl

/-- In the workspace itself the commands agree. -/
theorem decide_agrees_in_boundedDisk :
    let o : Options := { root := .value (.ofRoot []), command := some (.identify none) }
    (run bare ["identify-environment"] boundedDisk).exit = .ok 0 ∧
      SeesSameConfiguration o boundedDisk ∧
      ∃ f : Findings bare o none boundedDisk,
        (∃ globals own, ["identify-environment"] = globals ++ "identify-environment" :: own ∧
          Options.read (.ofRoot boundedDisk.here) globals = .ok { o with command := none }) ∧
        ∀ globals, Options.read (.ofRoot boundedDisk.here) globals =
            .ok { o with command := none } →
          (run bare (globals ++ f.words) boundedDisk).exit = .ok 0 ∧
            (run bare (globals ++ f.words) boundedDisk).output =
              (run bare ["identify-environment"] boundedDisk).output := by
  intro o
  have hread : Options.read (.ofRoot boundedDisk.here) ["identify-environment"] = .ok o := rfl
  have hresolve : boundedDisk.resolve (.ofRoot []) = .ok (.ofRoot []) :=
    Disk.resolve_here .root rfl
  obtain ⟨f, -, hshown⟩ := exists_findings_boundedDisk (o := o) rfl rfl hresolve
  have hexit : (run bare ["identify-environment"] boundedDisk).exit = .ok 0 := by
    rw [run_of_read hread rfl]
    exact runCommand_exit_eq_zero_iff.mpr (congrArg Prod.fst hshown)
  have hsees : SeesSameConfiguration o boundedDisk :=
    seesSameConfiguration_of_here .root rfl rfl
  exact ⟨hexit, hsees, decide_agrees_with_identify hread rfl hexit hsees⟩

/-- Back from a folder that is missing: a path that resolves to the workspace. -/
def roundabout : Path := ⟨.current, ["missing", ".."]⟩

theorem resolve_roundabout : boundedDisk.resolve roundabout = .ok (.ofRoot []) := by
  have hback : Files.resolveFrom boundedDisk.root boundedDisk.root.linkCount [] ["missing"] [".."] =
      .ok [] := by
    rw [Files.resolveFrom]
    change Files.resolveFrom boundedDisk.root boundedDisk.root.linkCount [] [] [] = _
    rw [Files.resolveFrom]
  have hfrom : Files.resolveFrom boundedDisk.root boundedDisk.root.linkCount [] []
      ["missing", ".."] = .ok [] := by
    rw [Files.resolveFrom]
    exact hback
  exact Disk.resolve_of_resolveFrom rfl hfrom

theorem entryAt?_roundabout : boundedDisk.entryAt? (roundabout.child Config.fileName) = .ok none := by
  have hfollow : Files.follow boundedDisk.root true Files.linkLimit []
      ["missing", "..", Config.fileName] = .error .missing := by
    rw [Files.follow]
    rfl
  exact Disk.entryAt?_of_follow_missing rfl (by decide) hfollow

/-- So to decide from there is to miss the bound. -/
theorem decideGiven_roundabout (hconfig : o.config = none) (hroot : o.root = .value roundabout) :
    (decideGiven bare o none none boundedDisk).output = (environment "1.21" "go").encode := by
  have hload : (o.load boundedDisk roundabout).result = .ok {} := by
    unfold Options.load Config.load
    rw [hconfig]
    dsimp only
    rw [entryAt?_roundabout]
    rfl
  have hsettings : settingsFor o boundedDisk (.decide none none) = .ok {} :=
    except_bind_eq_ok_iff.mpr ⟨roundabout, congrArg pathOf hroot, hload⟩
  let advice := Decision.adviceOf .standard {} ⟨.missing, .missing⟩ .noManifestNoEnv
  have hadvice : advise .standard {} ⟨.missing, .missing⟩ = .ok advice := rfl
  have hshown : (decideGiven bare o none none boundedDisk).shown =
      (reporting bare {} advice).shown :=
    decideGiven_shown hsettings rfl rfl hadvice
  have hversion : advice.version = "1.21" := rfl
  have hreporting : (reporting bare {} advice).shown =
      (.ok (), (environment "1.21" "go").encode) := by
    unfold reporting
    rw [hversion]
    rfl
  exact congrArg Prod.snd (hshown.trans hreporting)

/-- From there the commands do not agree: only one of them finds the bound. -/
theorem decide_disagrees_behind_missing_folder :
    let o : Options := { root := .value roundabout, command := some (.identify none) }
    let identified := run bare ["--project-root", "missing/..", "identify-environment"] boundedDisk
    identified.exit = .ok 0 ∧
      ∃ f : Findings bare o none boundedDisk,
        (run bare (["--project-root", "missing/.."] ++ f.words) boundedDisk).output ≠
          identified.output := by
  intro o identified
  have hpath : Path.ofText "missing/.." = roundabout := by decide +kernel
  have hidentify : Options.read (.ofRoot boundedDisk.here)
      ["--project-root", "missing/..", "identify-environment"] = .ok o :=
    congrArg (fun path => Except.ok
      { root := .value path, command := some (.identify none) : Options }) hpath
  have hdecide : Options.read (.ofRoot boundedDisk.here) ["--project-root", "missing/..", "decide"] =
      .ok { o with command := some (.decide none none) } :=
    congrArg (fun path => Except.ok
      { root := .value path, command := some (.decide none none) : Options }) hpath
  obtain ⟨f, hwords, hshown⟩ := exists_findings_boundedDisk (o := o) rfl rfl resolve_roundabout
  have hidentified : identified = runCommand bare o (.identify none) boundedDisk :=
    run_of_read hidentify rfl
  refine ⟨?_, f, ?_⟩
  · rw [hidentified]
    exact runCommand_exit_eq_zero_iff.mpr (congrArg Prod.fst hshown)
  · have hbounded : identified.output = (environment "1.15" "go").encode := by
      rw [hidentified]
      exact congrArg Prod.snd hshown
    have hmissed : (run bare (["--project-root", "missing/.."] ++ f.words) boundedDisk).output =
        (environment "1.21" "go").encode := by
      rw [hwords, List.cons_append, List.cons_append, List.nil_append, run_of_read hdecide rfl]
      exact decideGiven_roundabout rfl rfl
    rw [hmissed, hbounded]
    decide +kernel

end CommandLine

end ToolchainChoice
