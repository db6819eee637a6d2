import ToolchainChoice.Proofs.CommandLine.Shown
import ToolchainChoice.Proofs.Decision.Resolution
import ToolchainChoice.Proofs.Json.Environment

/-!
# No version outside the range is recommended

An advice is to install nothing or a version that the range contains. Both commands print the
version of an advice for the range that the configuration gives, so the same holds of what is
printed: for every disk, every configuration on it that is accepted, every machine and every stream.
-/
namespace ToolchainChoice.CommandLine

open Files (Path Disk)
open Config (Settings)
open Traced

/-- A version that a range admits as a recommendation: none, or one that it contains. -/
def Admits (range : SupportedRange) (version : String) : Prop :=
  version = "" ∨ (Version.isValid version = .ok true ∧ range.contains version = .ok true)

/-- A text shows, under the key of these settings, a version that their range admits. -/
def IsAdmitted (settings : Settings) (text : String) : Prop :=
  ∃ version, ShowsVersion settings.toolchain.key version text ∧ Admits settings.range version

theorem admits_advice {range : SupportedRange} {toolchain : Toolchain} {survey : Survey}
    {advice : Advice} (h : advise range toolchain survey = .ok advice) :
    Admits range advice.version := by
  rcases Decision.advise_version_mem_range h with hv | hc
  · exact .inl hv
  · exact .inr ⟨SupportedRange.isValid_of_contains hc, hc⟩

/-! ## Every run -/

theorem perform_prints (s : Surroundings) (o : Options) (disk : Disk) (command : Command) :
    (perform s o disk command).2.Prints fun text =>
      ∃ settings, settingsFor o disk command = .ok settings ∧ IsAdmitted settings text := by
  rcases perform_cases s o disk command with
    ⟨e, hfail, -⟩ | ⟨settings, survey, advice, hsettings, hadvice, hshown⟩
  · exact .inl (congrArg Prod.snd hfail)
  · have houtput : (perform s o disk command).2.output = (reporting s settings advice).output :=
      congrArg Prod.snd hshown
    have hreport : (reporting s settings advice).Prints fun text =>
        text = (environment advice.version settings.toolchain.key).encode :=
      (report_prints s.stream advice.version settings.toolchain.key).bind_silent
        fun _ => silent_pure ()
    rcases hreport with hnone | htext
    · exact .inl (houtput.trans hnone)
    · have hshows := environment_shows advice.version settings.toolchain.key
      rw [← houtput.trans htext] at hshows
      exact .inr ⟨settings, hsettings, advice.version, hshows, admits_advice hadvice⟩

/-- An advisor that answers recommends nothing or a version that its range contains, whatever it is
asked and whatever becomes of the diagnostic. A command that is run prints nothing or the
environment for such a version, with the range of the settings that it has loaded. -/
theorem recommended_version_in_range :
    (∀ (advisor : Advisor) now survey disk advice,
      (advisor.advise now survey disk).trace.result = .ok advice →
        Admits advisor.range advice.version) ∧
    ∀ (s : Surroundings) (texts : List String) (disk : Disk) (o : Options) (command : Command),
      Options.read (.ofRoot disk.here) texts = .ok o → o.command = some command →
        (run s texts disk).output = "" ∨
          ∃ settings, settingsFor o disk command = .ok settings ∧
            IsAdmitted settings (run s texts disk).output := by
  refine ⟨?_, ?_⟩
  · intro advisor now survey disk advice h
    exact admits_advice (Advisor.advise_of_result h)
  · intro s texts disk o command hread hcommand
    have hrun : run s texts disk = runCommand s o command disk := by
      unfold run
      rw [hread]
      dsimp only
      rw [hcommand]
    rw [hrun]
    exact perform_prints s o disk command

/-- A machine that nothing is installed on. -/
def bare : Surroundings := ⟨⟨fun _ => none, fun _ => .timedOut⟩, default, .working⟩

theorem version_1_20_in_range :
    Admits .standard "1.20.3" ∧
      let o : Options :=
        { root := .value (.ofRoot []), command := some (.decide (some (.value "1.20")) none) }
      let output := (run bare ["decide", "--manifest-version", "1.20"] ⟨.empty, []⟩).output
      output = "" ∨
        ∃ settings, settingsFor o ⟨.empty, []⟩ (.decide (some (.value "1.20")) none) =
            .ok settings ∧
          IsAdmitted settings output := by
  refine ⟨?_, ?_⟩
  · exact recommended_version_in_range.1 ⟨.standard, {}, .discard⟩ default
      ⟨.seen "1.20.3", .seen "1.19"⟩ ⟨.empty, []⟩
      (Decision.adviceOf .standard {} ⟨.seen "1.20.3", .seen "1.19"⟩ .manifestSupportedEnvLower) rfl
  · intro o
    exact recommended_version_in_range.2 bare ["decide", "--manifest-version", "1.20"]
      ⟨.empty, []⟩ o (.decide (some (.value "1.20")) none) rfl rfl

end ToolchainChoice.CommandLine
