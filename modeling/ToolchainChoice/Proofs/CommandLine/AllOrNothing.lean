import ToolchainChoice.Proofs.CommandLine.RangeSafety

/-!
# All or nothing

With a stream that works a command shows the whole environment and ends with the code zero, or ends
in another way, shows nothing and leaves every file as it was. The report is the last step and cannot
fail on such a stream, so whatever fails has failed before anything was shown or written.
-/
namespace ToolchainChoice.CommandLine

open Files (Disk)
open Config (Settings)
open Traced

variable {s : Surroundings} {o : Options} {disk : Disk} {command : Command}

theorem reporting_working_shown (hstream : s.stream = .working) (settings : Settings)
    (advice : Advice) : (reporting s settings advice).shown =
      (.ok (), (environment advice.version settings.toolchain.key).encode) := by
  unfold reporting
  rw [hstream, report_working]
  simp [shown, output, bind, andThen, pure, Traced.ofExcept, String.join]

/-- A run that fails ends with the code of a failure of its own, with that of an interruption, or
with the failure itself. -/
theorem conclude_result_of_error {run : Traced Unit} {e : Failure} (h : run.result = .error e) :
    (conclude run).result = .ok 1 ∨ (conclude run).result = .ok 130 ∨
      (conclude run).result = .error e := by
  unfold conclude
  rw [h]
  dsimp only
  split
  · exact .inr (.inl rfl)
  · split
    · exact .inl rfl
    · exact .inr (.inr rfl)

/-- **All or nothing.** A command line that is understood as a command, with a stream that works,
ends with the code zero and shows a version or none under the key of its settings, and nothing else, or
ends with the code one, the code 130 or a failure that passes through, and then shows nothing and leaves
the disk as it is. -/
theorem run_shows_all_or_nothing {texts : List String}
    (hread : Options.read (.ofRoot disk.here) texts = .ok o) (hcommand : o.command = some command)
    (hstream : s.stream = .working) :
    ((run s texts disk).exit = .ok 0 ∧ ∃ settings, settingsFor o disk command = .ok settings ∧
        ∃ version, ShowsVersion settings.toolchain.key version (run s texts disk).output) ∨
      (((run s texts disk).exit = .ok 1 ∨ (run s texts disk).exit = .ok 130 ∨
          ∃ e, (run s texts disk).exit = .error e) ∧
        (run s texts disk).output = "" ∧ (run s texts disk).disk = disk) := by
  rw [run_of_read hread hcommand]
  rcases perform_cases s o disk command with
    ⟨e, hfail, hdisk⟩ | ⟨settings, survey, advice, hsettings, hadvice, hshown⟩
  · refine .inr ⟨?_, congrArg Prod.snd hfail, hdisk⟩
    have hresult : (perform s o disk command).2.result = .error e := congrArg Prod.fst hfail
    rcases conclude_result_of_error hresult with hcode | hcode | hcode
    · exact .inl hcode
    · exact .inr (.inl hcode)
    · exact .inr (.inr ⟨e, hcode⟩)
  · rw [reporting_working_shown hstream] at hshown
    have hresult : (perform s o disk command).2.result = .ok () := congrArg Prod.fst hshown
    have houtput : (perform s o disk command).2.output =
        (environment advice.version settings.toolchain.key).encode := congrArg Prod.snd hshown
    refine .inl ⟨runCommand_exit_eq_zero_iff.mpr hresult, settings, hsettings, advice.version, ?_⟩
    change ShowsVersion settings.toolchain.key advice.version (perform s o disk command).2.output
    rw [houtput]
    exact environment_shows ..

def emptyDisk : Disk := ⟨.empty, []⟩

/-- A command line that decides for a declared version. -/
def decideFor (declared : String) : List String := ["decide", "--manifest-version", declared]

def decideOptions (declared : String) : Options :=
  { root := .value (.ofRoot []), command := some (.decide (some (.value declared)) none) }

theorem exit_decideFor_1_x : (run bare (decideFor "1.x") emptyDisk).exit ≠ .ok 0 := by
  have hread : Options.read (.ofRoot emptyDisk.here) (decideFor "1.x") = .ok (decideOptions "1.x") := rfl
  have hinvalid : Version.isValid "1.x" = .ok false := rfl
  rw [run_of_read hread rfl]
  intro hzero
  have hdecide := runCommand_exit_eq_zero_iff.mp hzero
  obtain ⟨root, -, hdecide⟩ := result_bind_eq_ok_iff.mp hdecide
  obtain ⟨settings, -, hdecide⟩ := result_bind_eq_ok_iff.mp hdecide
  obtain ⟨declared, hdeclared, -⟩ := result_bind_eq_ok_iff.mp hdecide
  obtain ⟨v, hv, -⟩ := result_bind_eq_ok_iff.mp hdeclared
  have hv : Version.read "1.x" = .ok v := Version.require_eq_ok_iff.mp hv
  rw [Version.isValid_eq_false_iff.mp hinvalid] at hv
  contradiction

theorem settingsFor_emptyDisk (declared : String) :
    settingsFor (decideOptions declared) emptyDisk (.decide (some (.value declared)) none) = .ok {} := by
  have hfollow : Files.follow emptyDisk.root true Files.linkLimit [] [Config.fileName] =
      .ok (.free [] Config.fileName) := by
    rw [Files.follow]
    rfl
  have hfind : emptyDisk.find ((Files.Path.ofRoot []).child Config.fileName) =
      .ok (.free [] Config.fileName) := by
    unfold Disk.find
    rw [if_neg (by decide)]
    exact hfollow
  have hentry : emptyDisk.entryAt? ((Files.Path.ofRoot []).child Config.fileName) = .ok none := by
    unfold Disk.entryAt? Disk.entryAt
    rw [hfind]
    rfl
  have hload : ((decideOptions declared).load emptyDisk (.ofRoot [])).result = .ok {} := by
    unfold Options.load Config.load decideOptions
    dsimp only
    rw [hentry]
    rfl
  exact hload

theorem output_decideFor_1_20 : (run bare (decideFor "1.20") emptyDisk).output =
    "\x7b\"go\": \x7b\"version\": \"1.20\"\x7d\x7d" := by
  have hread : Options.read (.ofRoot emptyDisk.here) (decideFor "1.20") = .ok (decideOptions "1.20") :=
    rfl
  have hadvice : advise .standard {} ⟨.seen "1.20", .missing⟩ =
      .ok (Decision.adviceOf .standard {} ⟨.seen "1.20", .missing⟩ .manifestSupportedNoEnv) := rfl
  have hshown := decideGiven_shown (s := bare) (settingsFor_emptyDisk "1.20") (d := .seen "1.20")
    (i := .missing) rfl rfl hadvice
  rw [reporting_working_shown rfl] at hshown
  rw [run_of_read hread rfl]
  exact (congrArg Prod.snd hshown).trans (by decide +kernel)

theorem emptyDisk_shows_all_or_nothing :
    (Options.read (.ofRoot emptyDisk.here) (decideFor "1.x") = .ok (decideOptions "1.x") ∧
      bare.stream = .working ∧ (run bare (decideFor "1.x") emptyDisk).exit ≠ .ok 0 ∧
      (run bare (decideFor "1.x") emptyDisk).output = "" ∧
      (run bare (decideFor "1.x") emptyDisk).disk = emptyDisk) ∧
    Options.read (.ofRoot emptyDisk.here) (decideFor "1.20") = .ok (decideOptions "1.20") ∧
      (run bare (decideFor "1.20") emptyDisk).exit = .ok 0 ∧
      (run bare (decideFor "1.20") emptyDisk).output =
        "\x7b\"go\": \x7b\"version\": \"1.20\"\x7d\x7d" ∧
      ∃ version, ShowsVersion "go" version "\x7b\"go\": \x7b\"version\": \"1.20\"\x7d\x7d" := by
  have hfailing : Options.read (.ofRoot emptyDisk.here) (decideFor "1.x") =
      .ok (decideOptions "1.x") := rfl
  have hsucceeding : Options.read (.ofRoot emptyDisk.here) (decideFor "1.20") =
      .ok (decideOptions "1.20") := rfl
  refine ⟨?_, ?_⟩
  · rcases run_shows_all_or_nothing hfailing rfl (rfl : bare.stream = .working) with
      ⟨hzero, -⟩ | ⟨-, hnothing⟩
    · exact absurd hzero exit_decideFor_1_x
    · exact ⟨hfailing, rfl, exit_decideFor_1_x, hnothing⟩
  · have houtput := output_decideFor_1_20
    rcases run_shows_all_or_nothing hsucceeding rfl (rfl : bare.stream = .working) with
      ⟨hzero, settings, hsettings, hshows⟩ | ⟨-, hnothing, -⟩
    · obtain rfl := Except.ok.inj ((settingsFor_emptyDisk "1.20").symm.trans hsettings)
      rw [houtput] at hshows
      exact ⟨hsucceeding, hzero, houtput, hshows⟩
    · rw [houtput] at hnothing
      exact absurd hnothing (by decide)

end ToolchainChoice.CommandLine
