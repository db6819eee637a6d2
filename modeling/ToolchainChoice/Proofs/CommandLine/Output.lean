import ToolchainChoice.CommandLine.Run
import ToolchainChoice.Proofs.Results
import ToolchainChoice.Proofs.Trace.Records

/-!
# What the commands print

The last step of either command prints, and no step before it does. What is printed is the
environment for the version of an advice, under the key of the settings that the command has loaded.
Nothing is said here of what is logged, or of the exit code; a stream that fails prints nothing or
all of it.
-/
namespace ToolchainChoice

open Files (Path Disk)
open Calendar (Moment)
open Config (Settings)
open Installation (Machine)
open Traced

/-- A record that makes no announcement and is none of a sink. -/
def Log.Record.IsRemark (r : Log.Record) : Prop := r.level ≠ .info ∧ r.source ≠ .diagnostics

open Log.Record (IsRemark)

theorem Traced.remarks_log {level : Log.Level} {source : Log.Source} {message : Symbols}
    (hlevel : level ≠ .info) (hsource : source ≠ .diagnostics) :
    (log level source message).LogsOnly IsRemark :=
  logsOnly_log ⟨hlevel, hsource⟩

/-! ## The workspace and the machine only remark -/

namespace Workspace

theorem unreadable_remarks (manifest : Path) (reason : String) :
    (unreadable manifest reason).LogsOnly IsRemark :=
  (remarks_log (by decide) (by decide)).bind fun _ => logsOnly_pure none

theorem declaredIn_remarks (d : Disk) (manifest : Path) :
    (declaredIn d manifest).LogsOnly IsRemark := by
  unfold declaredIn
  split
  · exact unreadable_remarks ..
  · split
    · exact unreadable_remarks ..
    · split
      · exact (remarks_log (by decide) (by decide)).bind fun _ => logsOnly_pure none
      · refine (logsOnly_lift _).bind fun valid => ?_
        split
        · exact logsOnly_pure _
        · exact (remarks_log (by decide) (by decide)).bind fun _ => logsOnly_pure none

theorem strongest_remarks (d : Disk) (best : Option Requirement) (manifests : List Path) :
    (strongest d best manifests).LogsOnly IsRemark := by
  induction manifests generalizing best with
  | nil => exact logsOnly_pure best
  | cons manifest rest ih =>
    refine (declaredIn_remarks d manifest).bind fun declared => ?_
    cases declared with
    | none => exact ih best
    | some version => exact (logsOnly_lift _).bind fun best => ih best

theorem manifests_remarks (d : Disk) (root : Path) : (manifests d root).LogsOnly IsRemark := by
  unfold manifests
  split
  · exact logsOnly_fail _
  · split
    · exact logsOnly_fail _
    · exact (remarks_log (by decide) (by decide)).bind fun _ => logsOnly_pure _
  · exact logsOnly_fail _

theorem observe_remarks (d : Disk) (root : Path) : (observe d root).LogsOnly IsRemark := by
  refine LogsOnly.bind ?_ fun _ => logsOnly_pure _
  refine (manifests_remarks d root).bind fun found => ?_
  refine (strongest_remarks d none found).bind fun best => ?_
  cases best <;> exact (remarks_log (by decide) (by decide)).bind fun _ => logsOnly_pure _

end Workspace

namespace Installation

theorem unusable_remarks (message : Symbols) : (unusable message).LogsOnly IsRemark :=
  (remarks_log (by decide) (by decide)).bind fun _ => logsOnly_pure none

theorem ofOutput_remarks (path : Path) (output : String) :
    (ofOutput path output).LogsOnly IsRemark := by
  unfold ofOutput
  split
  · exact unusable_remarks _
  · refine (logsOnly_lift _).bind fun valid => ?_
    split
    · exact (remarks_log (by decide) (by decide)).bind fun _ => logsOnly_pure _
    · exact unusable_remarks _

theorem ofReply_remarks (path : Path) (reply : Reply) :
    (ofReply path reply).LogsOnly IsRemark := by
  cases reply with
  | exited code output =>
    unfold ofReply
    dsimp only
    split
    · exact ofOutput_remarks path output
    · exact unusable_remarks _
  | undecodable => exact logsOnly_fail _
  | timedOut => exact unusable_remarks _
  | refused reason => exact unusable_remarks _
  | interrupted => exact logsOnly_fail _

theorem observe_remarks (machine : Machine) (executable : Symbols) :
    (observe machine executable).LogsOnly IsRemark := by
  refine LogsOnly.bind ?_ fun _ => logsOnly_pure _
  unfold detect
  split
  · exact unusable_remarks _
  · exact ofReply_remarks ..

end Installation

/-! ## The advisor is silent -/

theorem Diagnostics.Sink.emit_silent (sink : Diagnostics.Sink) (now : Moment) (d : Diagnostic)
    (disk : Disk) : (sink.emit now d disk).trace.Silent := by
  cases sink with
  | discard => exact silent_pure ()
  | logging level => exact silent_log ..
  | recording received => exact silent_pure ()
  | archive a =>
    change (a.emit now d disk).trace.Silent
    unfold Diagnostics.Archive.emit
    dsimp only
    split
    · exact silent_fail _
    · split <;> exact silent_log ..

theorem Decision.classifyNoting_remarks (range : SupportedRange) (o : Observation) :
    (classifyNoting range o).LogsOnly IsRemark := by
  refine (logsOnly_lift _).bind fun state => ?_
  split
  · exact (remarks_log (by decide) (by decide)).bind fun _ => logsOnly_pure state
  · exact logsOnly_pure state

namespace Advisor

theorem consider_remarks (a : Advisor) (survey : Survey) :
    (a.consider survey).LogsOnly IsRemark := by
  refine LogsOnly.bind ?_ fun code => (remarks_log (by decide) (by decide)).bind fun _ => logsOnly_pure _
  refine (Decision.classifyNoting_remarks ..).bind fun d => ?_
  exact (Decision.classifyNoting_remarks ..).bind fun i => logsOnly_lift _

theorem advise_silent (a : Advisor) (now : Moment) (survey : Survey) (disk : Disk) :
    (a.advise now survey disk).trace.Silent := by
  unfold advise
  dsimp only
  split
  · exact (consider_remarks a survey).silent
  · refine (consider_remarks a survey).silent.bind fun advice => ?_
    exact (Diagnostics.Sink.emit_silent ..).bind fun _ => silent_pure advice

/-- With whatever sink, the answer of an advisor is the advice for the survey. -/
theorem advise_of_result {a : Advisor} {now : Moment} {survey : Survey} {disk : Disk}
    {advice : Advice} (h : (a.advise now survey disk).trace.result = .ok advice) :
    ToolchainChoice.advise a.range a.toolchain survey = .ok advice := by
  rw [← consider_result a survey]
  unfold advise at h
  dsimp only at h
  split at h
  · rename_i e he
    rw [he] at h
    contradiction
  · rename_i advice' he
    obtain ⟨a1, h1, h⟩ := result_bind_eq_ok_iff.mp h
    obtain ⟨u, -, h⟩ := result_bind_eq_ok_iff.mp h
    rw [he] at h1 ⊢
    exact h1.trans h

end Advisor

/-! ## The report -/

theorem Stream.write_prints (stream : Stream) (text : String) :
    (stream.write text).Prints fun printed => printed = text := by
  unfold Stream.write
  split
  · exact (silent_pure _).prints
  · refine Prints.bind_silent (.inr ?_) fun _ => silent_pure _
    simp [print, output, String.join]

theorem troubled_silent (trouble : StreamTrouble) : (troubled trouble).Silent := by
  unfold troubled
  split
  · exact (silent_log ..).bind fun _ => silent_pure _
  · exact silent_fail _

/-- A stream takes the whole text of the environment or none of it. -/
theorem report_prints (stream : Stream) (version : String) (key : Symbols) :
    (report stream version key).Prints fun printed =>
      printed = (environment version key).encode := by
  refine (stream.write_prints _).bind_silent fun trouble => ?_
  cases trouble with
  | some trouble => exact troubled_silent trouble
  | none =>
    dsimp only
    split
    · exact troubled_silent _
    · exact silent_pure _

theorem report_working (version : String) (key : Symbols) :
    report .working version key = ⟨[.printed (environment version key).encode], .ok true⟩ :=
  rfl

/-- The trouble that a stream makes, when it is written to or else when it is flushed. -/
def Stream.Meets (stream : Stream) (trouble : StreamTrouble) : Prop :=
  stream.onWrite = some trouble ∨ stream.onWrite = none ∧ stream.onFlush = some trouble

/-- Trouble that is logged makes one record and no failure. -/
theorem report_of_meets {stream : Stream} {trouble : StreamTrouble} (h : stream.Meets trouble)
    (hlogged : trouble.fault.isLogged = true) (version : String) (key : Symbols) :
    (report stream version key).result = .ok false ∧
      (report stream version key).records =
        [⟨.error, .report, "Failed to write environment json to stdout: " ++ trouble.text⟩] := by
  have htroubled : troubled trouble = ⟨[.logged ⟨.error, .report,
      "Failed to write environment json to stdout: " ++ trouble.text⟩], .ok false⟩ := by
    unfold troubled
    rw [if_pos hlogged]
    rfl
  obtain ⟨onWrite, onFlush⟩ := stream
  rcases h with hw | ⟨hw, hf⟩
  · obtain rfl : onWrite = some trouble := hw
    have hreport : report ⟨some trouble, onFlush⟩ version key = troubled trouble := rfl
    rw [hreport, htroubled]
    exact ⟨rfl, rfl⟩
  · obtain rfl : onWrite = none := hw
    obtain rfl : onFlush = some trouble := hf
    have hreport : report ⟨none, some trouble⟩ version key =
        (Traced.print (environment version key).encode >>= fun _ => troubled trouble) := rfl
    rw [hreport, htroubled]
    exact ⟨rfl, rfl⟩

/-! ## The commands -/

namespace CommandLine

theorem load_silent (o : Options) (disk : Disk) (root : Path) : (o.load disk root).Silent := by
  have hload : ∀ path, (Config.load disk root path).Silent := by
    intro path
    unfold Config.load
    split
    · exact silent_lift _
    · dsimp only
      split
      · exact silent_fail _
      · exact (silent_log ..).bind fun _ => silent_pure _
      · exact (silent_log ..).bind fun _ => silent_lift _
  unfold Options.load
  split
  · exact hload none
  · exact (silent_lift _).bind fun path => hload (some path)

theorem given_silent (version : Option (Argument String)) : (given version).Silent := by
  unfold given
  split
  · exact silent_pure _
  · exact silent_fail _
  · exact (silent_lift _).bind fun _ => silent_pure _

end CommandLine

end ToolchainChoice
