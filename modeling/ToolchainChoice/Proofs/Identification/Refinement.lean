import Mathlib
import ToolchainChoice.Proofs.CommandLine.Shown
import ToolchainChoice.Proofs.Diagnostics.Session
import ToolchainChoice.Proofs.Identification.Collected
import ToolchainChoice.Proofs.Json.Environment

/-!
# Identifying the environment is deciding

Where the workspace and the machine answer, a run gives the advice on what they have answered, writes
its environment, lets one diagnostic reach the sink and announces it once in the log. What the stream
does comes last: trouble with it that is logged adds one record and changes nothing else.

The answers are taken as they are, and nothing is assumed of them but that they have been given; that
there is an advice on them is part of what is shown.
-/
namespace ToolchainChoice

open Files (Path Disk)
open Calendar (Moment)
open CommandLine (reporting)
open Config (Settings)
open Diagnostics (Sink)
open Log.Record (IsRemark)
open Traced

variable {s : Surroundings} {settings : Settings} {sink : Sink} {disk : Disk} {root : Path}
variable {advice : Advice} {survey : Survey} {workspace : Traced Observation} {stream : Stream}

/-! ## An advice on what has been found -/

theorem exists_advise_of_answers (range : SupportedRange) (toolchain : Toolchain)
    {machine : Installation.Machine} {executable : Symbols}
    {declared : Option Workspace.Requirement} {installed : Option Installation.Installed}
    (hdeclared : (Workspace.requirement disk root).result = .ok declared)
    (hinstalled : (Installation.detect machine executable).result = .ok installed) :
    ∃ advice, advise range toolchain
      ⟨.ofOption (declared.map (·.version)), .ofOption (installed.map (·.version))⟩ =
        .ok advice := by
  have hd := Workspace.isClean_of_observe (result_bind_eq_ok_iff.mpr ⟨declared, hdeclared, rfl⟩)
  have hi :=
    Installation.isClean_of_observe (result_bind_eq_ok_iff.mpr ⟨installed, hinstalled, rfl⟩)
  have hclean : Survey.IsClean
      ⟨.ofOption (declared.map (·.version)), .ofOption (installed.map (·.version))⟩ := ⟨hd, hi⟩
  obtain ⟨code, hcode, -⟩ := Decision.exists_resolve_of_isClean range hclean
  exact ⟨_, except_map_eq_ok_iff.mpr ⟨code, hcode, rfl⟩⟩

/-! ## What is announced -/

/-- The record that announces an advice. It is of the level `info`; a sink in the log makes it itself,
with the code in brackets and at the level that the sink has. -/
def Diagnostics.Sink.announcement (sink : Sink) (advice : Advice) : Log.Record :=
  match sink with
  | .logging level => ⟨level, .diagnostics, "[" ++ advice.code.slug ++ "] " ++ advice.message⟩
  | _ => ⟨.info, .identification, advice.message⟩

/-- A log has a record once, and no other one that makes an announcement. -/
structure Log.AnnouncesOnce (records : List Log.Record) (r : Log.Record) : Prop where
  once : records.count r = 1
  alone : ∀ r' ∈ records, r'.level = .info → r' = r

def Log.Record.IsBeside (r r' : Log.Record) : Prop := r'.level ≠ .info ∧ r' ≠ r

theorem Log.announcesOnce_concat {before : List Log.Record} {r : Log.Record}
    (h : ∀ r' ∈ before, r.IsBeside r') : Log.AnnouncesOnce (before ++ [r]) r where
  once := by
    have hbefore : before.count r = 0 := List.count_eq_zero.mpr fun hr => (h r hr).2 rfl
    simp [List.count_append, hbefore]
  alone r' hr' hinfo := by
    rcases List.mem_append.mp hr' with hr' | hr'
    · exact absurd hinfo (h r' hr').1
    · exact List.mem_singleton.mp hr'

/-- A remark is not what a sink announces: that is of the level `info` or the record of a sink. -/
theorem Log.Record.IsRemark.isBeside {r : Log.Record} (h : r.IsRemark) (sink : Sink)
    (advice : Advice) : (sink.announcement advice).IsBeside r := by
  refine ⟨h.1, ?_⟩
  rintro rfl
  cases sink with
  | logging level => exact h.2 rfl
  | discard | recording received | archive archive => exact h.1 rfl

/-- What a sink logs by itself and what is logged in its place end with the announcement. -/
theorem exists_records_of_emit (advice : Advice) (hready : sink.IsReady s.now disk) :
    ∃ before, (∀ r ∈ before, (sink.announcement advice).IsBeside r) ∧
      (sink.emit s.now advice.diagnostic disk).trace.records ++
          (if sink.isLogging then [] else [⟨.info, .identification, advice.message⟩]) =
        before ++ [sink.announcement advice] := by
  cases sink with
  | discard => exact ⟨[], by simp, rfl⟩
  | logging level => exact ⟨[], by simp, rfl⟩
  | recording received => exact ⟨[], by simp, rfl⟩
  | archive archive =>
    obtain ⟨folder, hwritable⟩ := hready
    obtain ⟨written, message, hemit, -⟩ := hwritable.exists_emit advice.diagnostic
    refine ⟨[⟨.debug, .diagnostics, message⟩], ?_, ?_⟩
    · intro r hr
      obtain rfl := List.mem_singleton.mp hr
      exact ⟨by simp [Log.Level.debug, Log.Level.info], by simp [Sink.announcement]⟩
    · unfold Sink.emit
      dsimp only
      rw [hemit]
      rfl

/-! ## The steps of a run -/

theorem survey_of_answers {declared : Option Workspace.Requirement}
    {installed : Option Installation.Installed}
    (hdeclared : (Workspace.requirement disk root).result = .ok declared)
    (hinstalled : (Installation.detect s.machine settings.executable).result = .ok installed) :
    (s.survey settings (Workspace.observe disk root)).result =
      .ok ⟨.ofOption (declared.map (·.version)), .ofOption (installed.map (·.version))⟩ := by
  refine result_bind_eq_ok_iff.mpr ⟨_, ?_, result_bind_eq_ok_iff.mpr ⟨_, ?_, rfl⟩⟩
  · exact result_bind_eq_ok_iff.mpr ⟨declared, hdeclared, rfl⟩
  · exact result_bind_eq_ok_iff.mpr ⟨installed, hinstalled, rfl⟩

theorem Advisor.advise_trace_of_ok {a : Advisor} (now : Moment) (disk : Disk)
    (h : (a.consider survey).result = .ok advice) :
    (a.advise now survey disk).trace = (do
      let given ← a.consider survey
      (a.sink.emit now advice.diagnostic disk).trace
      return given) := by
  unfold advise
  dsimp only
  rw [h]

/-- Up to the announcement the log has remarks and what the sink logs. -/
theorem deliberate_of_advise (hw : workspace.LogsOnly IsRemark)
    (hsurvey : (s.survey settings workspace).result = .ok survey)
    (hadvice : advise settings.range settings.toolchain survey = .ok advice)
    (hemit : (sink.emit s.now advice.diagnostic disk).trace.result = .ok ()) :
    (s.deliberate settings sink workspace survey disk).result = .ok advice ∧
      ∃ remarks, (∀ r ∈ remarks, r.IsRemark) ∧
        (s.deliberate settings sink workspace survey disk).records =
          remarks ++ (sink.emit s.now advice.diagnostic disk).trace.records := by
  have hasked := survey_remarks s settings hw
  have hremarks := Advisor.consider_remarks (settings.advisor sink) survey
  have hconsider : ((settings.advisor sink).consider survey).result = .ok advice :=
    (Advisor.consider_result ..).trans hadvice
  have htrace := Advisor.advise_trace_of_ok s.now disk hconsider
  have hlast : ((sink.emit s.now advice.diagnostic disk).trace >>= fun _ =>
      (pure advice : Traced Advice)).records =
        (sink.emit s.now advice.diagnostic disk).trace.records := by
    rw [records_bind_of_ok hemit]
    exact List.append_nil _
  unfold Surroundings.deliberate
  refine ⟨?_, (s.survey settings workspace).records ++
    ((settings.advisor sink).consider survey).records, ?_, ?_⟩
  · rw [result_bind_of_ok hsurvey, htrace, result_bind_of_ok hconsider]
    exact result_bind_of_ok hemit
  · intro r hr
    rcases List.mem_append.mp hr with hr | hr
    · exact hasked.of_mem hr
    · exact hremarks.of_mem hr
  · rw [records_bind_of_ok hsurvey, htrace, records_bind_of_ok hconsider, List.append_assoc]
    exact congrArg _ (congrArg _ hlast)

theorem announce_of_report {written : Bool} (sink : Sink)
    (h : (report s.stream advice.version settings.toolchain.key).result = .ok written) :
    (s.announce settings sink advice).result = .ok () ∧
      (s.announce settings sink advice).output =
        (report s.stream advice.version settings.toolchain.key).output ∧
      (s.announce settings sink advice).records =
        (if sink.isLogging then [] else [⟨.info, .identification, advice.message⟩]) ++
          (report s.stream advice.version settings.toolchain.key).records := by
  have hresult : (reporting s settings advice).result = .ok () := result_bind_of_ok h
  have houtput : (reporting s settings advice).output =
      (report s.stream advice.version settings.toolchain.key).output :=
    output_bind_of_silent fun _ => silent_pure ()
  have hrecords : (reporting s settings advice).records =
      (report s.stream advice.version settings.toolchain.key).records :=
    (records_bind_of_ok h).trans (List.append_nil _)
  unfold Surroundings.announce
  cases hlogging : sink.isLogging with
  | true => exact ⟨hresult, houtput, hrecords⟩
  | false =>
    refine ⟨?_, ?_, ?_⟩
    · exact (result_bind_of_ok rfl).trans hresult
    · exact ((silent_log ..).output_bind rfl).trans houtput
    · exact (records_bind_of_ok rfl).trans (congrArg _ hrecords)

/-! ## A whole run -/

theorem identify_emits (hsurvey : (s.survey settings workspace).result = .ok survey)
    (hadvice : advise settings.range settings.toolchain survey = .ok advice) :
    (s.identify settings sink workspace disk).sink =
        (sink.emit s.now advice.diagnostic disk).sink ∧
      (s.identify settings sink workspace disk).disk =
        (sink.emit s.now advice.diagnostic disk).disk := by
  rw [identify_of_survey hsurvey]
  exact Advisor.advise_of_ok (settings.advisor sink) s.now disk hadvice

/-- A run gives the advice if the report has a result, whichever it is, and shows what the report
shows; its log ends with that of the report. -/
theorem identify_of_report {written : Bool} (hw : workspace.LogsOnly IsRemark)
    (hsurvey : (s.survey settings workspace).result = .ok survey)
    (hadvice : advise settings.range settings.toolchain survey = .ok advice)
    (hemit : (sink.emit s.now advice.diagnostic disk).trace.result = .ok ())
    (hreport : (report s.stream advice.version settings.toolchain.key).result = .ok written) :
    (s.identify settings sink workspace disk).trace.result = .ok advice ∧
      (s.identify settings sink workspace disk).trace.output =
        (report s.stream advice.version settings.toolchain.key).output ∧
      (s.identify settings sink workspace disk).trace.records =
        (s.deliberate settings sink workspace survey disk).records ++
          (if sink.isLogging then [] else [⟨.info, .identification, advice.message⟩]) ++
            (report s.stream advice.version settings.toolchain.key).records := by
  obtain ⟨hresult, -⟩ := deliberate_of_advise hw hsurvey hadvice hemit
  have hsilent := deliberate_silent s settings sink hw survey disk
  obtain ⟨hannounce, hshown, hrecords⟩ := announce_of_report sink hreport
  rw [identify_of_survey hsurvey]
  refine ⟨?_, ?_, ?_⟩
  · exact (result_bind_of_ok hresult).trans (result_bind_of_ok hannounce)
  · rw [hsilent.output_bind hresult, ← hshown]
    exact output_bind_of_silent fun _ => silent_pure advice
  · have hnone : (pure advice : Traced Advice).records = [] := rfl
    rw [records_bind_of_ok hresult, records_bind_of_ok hannounce, hrecords, hnone,
      List.append_nil, List.append_assoc]

/-- What precedes the report in the log ends with the announcement. -/
theorem exists_records_of_deliberate (hw : workspace.LogsOnly IsRemark)
    (hsurvey : (s.survey settings workspace).result = .ok survey)
    (hadvice : advise settings.range settings.toolchain survey = .ok advice)
    (hready : sink.IsReady s.now disk) :
    ∃ before, (∀ r ∈ before, (sink.announcement advice).IsBeside r) ∧
      (s.deliberate settings sink workspace survey disk).records ++
          (if sink.isLogging then [] else [⟨.info, .identification, advice.message⟩]) =
        before ++ [sink.announcement advice] := by
  obtain ⟨hemit, -⟩ := Sink.emit_delivered (d := advice.diagnostic) hready
  obtain ⟨-, remarks, hremarks, hrecords⟩ := deliberate_of_advise hw hsurvey hadvice hemit
  obtain ⟨before, hbefore, hemitted⟩ := exists_records_of_emit advice hready
  refine ⟨remarks ++ before, ?_, ?_⟩
  · intro r hr
    rcases List.mem_append.mp hr with hr | hr
    · exact (hremarks r hr).isBeside sink advice
    · exact hbefore r hr
  · rw [hrecords, List.append_assoc, hemitted, List.append_assoc]

/-- **Refinement.** Where the workspace and the machine answer and the sink is ready, there is an
advice on the two answers, and with a working stream the run gives it, writes its version under the key
of the settings and nothing else, delivers its message and its code to the sink, once, and announces it
once. A stream whose trouble is
logged changes neither the advice nor what becomes of the sink and the disk; the log has one record
more. -/
theorem identify_refines_decision {declared : Option Workspace.Requirement}
    {installed : Option Installation.Installed}
    (hdeclared : (Workspace.requirement disk root).result = .ok declared)
    (hinstalled : (Installation.detect s.machine settings.executable).result = .ok installed)
    (hready : sink.IsReady s.now disk) :
    let survey : Survey :=
      ⟨.ofOption (declared.map (·.version)), .ofOption (installed.map (·.version))⟩
    let run (stream : Stream) :=
      { s with stream }.identify settings sink (Workspace.observe disk root) disk
    ∃ advice, advise settings.range settings.toolchain survey = .ok advice ∧
      (run .working).trace.result = .ok advice ∧
      ShowsVersion settings.toolchain.key advice.version (run .working).trace.output ∧
      sink.Delivered s.now advice.message advice.code disk (run .working).sink (run .working).disk ∧
      Log.AnnouncesOnce (run .working).trace.records (sink.announcement advice) ∧
      ∀ stream trouble, stream.Meets trouble → trouble.fault.isLogged = true →
        (run stream).trace.result = .ok advice ∧
        (run stream).sink = (run .working).sink ∧
        (run stream).disk = (run .working).disk ∧
        (run stream).trace.records = (run .working).trace.records ++
          [⟨.error, .report, "Failed to write environment json to stdout: " ++ trouble.text⟩] := by
  intro survey run
  obtain ⟨advice, hadvice⟩ :=
    exists_advise_of_answers settings.range settings.toolchain hdeclared hinstalled
  have hw := Workspace.observe_remarks disk root
  have hsurvey : (s.survey settings (Workspace.observe disk root)).result = .ok survey :=
    survey_of_answers hdeclared hinstalled
  obtain ⟨hemit, hdelivered⟩ := Sink.emit_delivered (d := advice.diagnostic) hready
  have hafter : ∀ stream, (run stream).sink = (sink.emit s.now advice.diagnostic disk).sink ∧
      (run stream).disk = (sink.emit s.now advice.diagnostic disk).disk := fun stream =>
    identify_emits (s := { s with stream }) hsurvey hadvice
  obtain ⟨before, hbefore, htold⟩ := exists_records_of_deliberate hw hsurvey hadvice hready
  obtain ⟨hresult, houtput, hrecords⟩ := identify_of_report (s := { s with stream := .working })
    hw hsurvey hadvice hemit (congrArg Traced.result (report_working ..))
  have hworking : (run .working).trace.records = before ++ [sink.announcement advice] := by
    refine hrecords.trans ?_
    rw [report_working]
    exact (List.append_nil _).trans htold
  refine ⟨advice, hadvice, hresult, ?_, ?_, ?_, ?_⟩
  · rw [houtput, output_report_working]
    exact environment_shows ..
  · rw [(hafter .working).1, (hafter .working).2]
    exact hdelivered
  · rw [hworking]
    exact Log.announcesOnce_concat hbefore
  · intro stream trouble hmeets hlogged
    obtain ⟨hreport, herror⟩ :=
      report_of_meets hmeets hlogged advice.version settings.toolchain.key
    obtain ⟨hresult, -, hrecords⟩ := identify_of_report (s := { s with stream })
      hw hsurvey hadvice hemit hreport
    refine ⟨hresult, ?_, ?_, ?_⟩
    · rw [(hafter stream).1, (hafter .working).1]
    · rw [(hafter stream).2, (hafter .working).2]
    · rw [hworking, ← herror]
      exact hrecords.trans (congrArg (· ++ _) htold)

/-! ## A workspace with a folder for diagnostics -/

def moduleDisk : Disk where
  root := .folder [("go.mod", .file "go 1.20\n".toUTF8), ("out", .folder [])]
  here := []

def outArchive : Diagnostics.Archive := { directory := "out", source := "go" }

theorem outArchive_isReady : (Sink.archive outArchive).IsReady default moduleDisk := by
  have hfind : moduleDisk.find ⟨.current, ["out"]⟩ = .ok (.entry ["out"] (.folder [])) := by cbv
  have hfolder : Path.ofText "out" = ⟨.current, ["out"]⟩ := by decide +kernel
  have hnamed : Files.locate outArchive.directory = .ok (.ok ⟨.current, ["out"]⟩) := by
    rw [← hfolder]
    exact Files.locate_ofString (by decide)
  exact ⟨_, Diagnostics.Archive.isWritable_of_find hnamed hfind rfl (by decide +kernel)
    (by decide +kernel)⟩

theorem identify_moduleDisk_refines_decision :
    let s : Surroundings := ⟨⟨fun _ => none, fun _ => .timedOut⟩, default, .working⟩
    let run (stream : Stream) := { s with stream }.identify {} (.archive outArchive)
      (Workspace.observe moduleDisk (.ofRoot [])) moduleDisk
    (Workspace.requirement moduleDisk (.ofRoot [])).result =
        .ok (some ⟨"1.20", .ofRoot ["go.mod"]⟩) ∧
      (Installation.detect s.machine "go").result = .ok none ∧
      (Sink.archive outArchive).IsReady s.now moduleDisk ∧
      ∃ advice, (run .working).trace.result = .ok advice ∧
        ShowsVersion "go" "1.20" (run .working).trace.output ∧
        (Sink.archive outArchive).Delivered s.now advice.message advice.code moduleDisk
          (run .working).sink (run .working).disk ∧
        Log.AnnouncesOnce (run .working).trace.records
          ⟨.info, .identification, advice.message⟩ ∧
        (run .closed).trace.result = .ok advice ∧
        (run .closed).trace.records = (run .working).trace.records ++ [⟨.error, .report,
          "Failed to write environment json to stdout: I/O operation on closed file"⟩] := by
  intro s run
  have hdeclared : (Workspace.requirement moduleDisk (.ofRoot [])).result =
      .ok (some ⟨"1.20", .ofRoot ["go.mod"]⟩) := by cbv
  have hinstalled : (Installation.detect s.machine ({} : Settings).executable).result = .ok none :=
    rfl
  obtain ⟨advice, hadvice, hresult, houtput, hdelivered, hannounces, htrouble⟩ :=
    identify_refines_decision hdeclared hinstalled outArchive_isReady
  have hversion : (advise .standard {} ⟨.seen "1.20", .missing⟩).toOption.map Advice.version =
      some "1.20" := by decide +kernel
  have hgiven : (Except.ok advice : Except Failure Advice).toOption.map Advice.version =
      some "1.20" := hadvice ▸ hversion
  rw [Option.some.inj hgiven] at houtput
  obtain ⟨hclosed, -, -, hrecords⟩ := htrouble .closed _ (.inl rfl) rfl
  exact ⟨hdeclared, hinstalled, outArchive_isReady, advice, hresult, houtput, hdelivered,
    hannounces, hclosed, hrecords⟩

end ToolchainChoice
