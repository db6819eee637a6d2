import Mathlib
import ToolchainChoice.Proofs.Diagnostics.Archive

/-!
# Failures that stay in the archive

A diagnostic that an archive cannot write costs a warning and nothing else. The decision is the one that
is made without an archive, no file changes, and the diagnostics that come later have the names and the
contents that they would have had. Nothing is assumed of the disk, which may be another one each time.

The exceptions are folders that the system cannot be asked for: their names hold the character NUL, or half
a character that no octet stands for. They are refused where the archive does not look for faults. So the
failure leaves the archive, and the decision is lost with it.
-/
namespace ToolchainChoice

open Files (Path Disk Unnameable locate)
open Calendar (Moment)

namespace Diagnostics

variable {archive : Archive} {now : Moment} {d : Diagnostic} {disk : Disk}

/-! ## One diagnostic -/

/-- What comes of one diagnostic, in a folder that the system can be asked for: it is in the file that is
meant for it and can be read there, or a single warning says why it is not. The archive is the same
afterwards in both cases. -/
inductive Archive.Outcome (archive : Archive) (now : Moment) (d : Diagnostic) (disk : Disk) :
    Emission Archive Unit → Prop
  | written {folder : Path} {after : Disk} {place : Files.Place}
      (named : locate archive.directory = .ok (.ok folder))
      (stored : store (.ok folder) (archive.nextName now) (archive.content now d) disk = (after, .ok ()))
      (found : after.find (folder.child (archive.nextName now)) =
        .ok (.entry place (.file (archive.content now d))))
      (gains : disk.GainsFile after place (archive.content now d))
      (tells : IsFileOf (archive.content now d) archive.source d.message d.code) :
      Outcome archive now d disk ⟨archive.next, after, .debug .diagnostics
        ("Wrote diagnostic " ++ d.code.slug ++ " to " ++ archive.shownFile now)⟩
  | failed {located : Except Files.Fault Path} {after : Disk} {fault : Files.Fault}
      (named : locate archive.directory = .ok located)
      (refused : store located (archive.nextName now) (archive.content now d) disk = (after, .error fault))
      (unchanged : ∀ place, after.root.fileAt? place = disk.root.fileAt? place) :
      Outcome archive now d disk ⟨archive.next, after, .log .warning .diagnostics
        ("Failed to write diagnostic " ++ d.code.slug ++ " to " ++ archive.shownFile now ++ ": " ++
          fault.message)⟩

variable {located : Except Files.Fault Path} {name : String} {content : ByteArray} {after : Disk}
variable {fault : Files.Fault} {e : Failure}

/-- Folders may have been made by the time something goes wrong. They are no files. -/
theorem fileAt?_of_store_eq_error (h : store located name content disk = (after, .error fault))
    (place : Files.Place) : after.root.fileAt? place = disk.root.fileAt? place := by
  unfold store at h
  split at h
  · obtain rfl := (Prod.mk.inj h).1
    rfl
  · rename_i folder
    have hfolders := Files.fileAt?_makeFolders folder.start folder.names disk
    split at h
    · rename_i made fault' hmade
      rw [hmade] at hfolders
      obtain rfl := (Prod.mk.inj h).1
      exact hfolders place
    · rename_i made hmade
      rw [hmade] at hfolders
      split at h
      · exact absurd (Prod.mk.inj h).2 (by simp)
      · obtain rfl := (Prod.mk.inj h).1
        exact hfolders place

namespace Archive

theorem emit_of_unnameable (h : Unnameable archive.directory e) (now : Moment) (d : Diagnostic)
    (disk : Disk) : archive.emit now d disk = ⟨archive.next, disk, .fail e⟩ := by
  unfold emit
  dsimp only
  rw [Files.locate_eq_error_iff.mpr h]
  rfl

theorem emit_of_store_eq_error (hlocated : locate archive.directory = .ok located)
    (h : store located (archive.nextName now) (archive.content now d) disk = (after, .error fault)) :
    archive.emit now d disk = ⟨archive.next, after, .log .warning .diagnostics
      ("Failed to write diagnostic " ++ d.code.slug ++ " to " ++ archive.shownFile now ++ ": " ++
        fault.message)⟩ := by
  unfold nextName content at h
  unfold emit
  dsimp only
  rw [hlocated]
  dsimp only
  rw [h]
  rfl

theorem outcome_emit (hnamed : ∀ e, ¬Unnameable archive.directory e) (now : Moment) (d : Diagnostic)
    (disk : Disk) : archive.Outcome now d disk (archive.emit now d disk) := by
  obtain ⟨located, hlocated⟩ := Files.exists_locate hnamed
  rcases hstore : store located (archive.nextName now) (archive.content now d) disk with
    ⟨after, fault | done⟩
  · rw [emit_of_store_eq_error hlocated hstore]
    exact .failed hlocated hstore (fileAt?_of_store_eq_error hstore)
  · rw [emit_of_store hlocated hstore]
    obtain ⟨folder, place, rfl, hfound, hgains⟩ := exists_of_store hstore
    exact .written hlocated hstore hfound hgains (archive.isFileOf_content now d)

theorem Outcome.result_eq {e : Emission Archive Unit} (h : archive.Outcome now d disk e) :
    e.trace.result = .ok () := by
  cases h <;> rfl

theorem Outcome.sink_eq {e : Emission Archive Unit} (h : archive.Outcome now d disk e) :
    e.sink = archive.next := by
  cases h <;> rfl

/-- A diagnostic counts, whatever comes of it. -/
theorem emit_sink (archive : Archive) (now : Moment) (d : Diagnostic) (disk : Disk) :
    (archive.emit now d disk).sink = archive.next := by
  by_cases hnamed : ∀ e, ¬Unnameable archive.directory e
  · exact (outcome_emit hnamed now d disk).sink_eq
  · obtain ⟨e, he⟩ := not_forall_not.mp hnamed
    rw [emit_of_unnameable he]

/-! ## One diagnostic after another -/

/-- A diagnostic is received at a time, with the disk as it is then. -/
structure Receipt where
  now : Moment
  diagnostic : Diagnostic
  disk : Disk

/-- What comes of diagnostics that are received in turn. In between, the disk may become another one. -/
def emitEach (archive : Archive) : List Receipt → List (Emission Archive Unit)
  | [] => []
  | r :: receipts =>
    let first := archive.emit r.now r.diagnostic r.disk
    first :: first.sink.emitEach receipts

/-- The archive after `n` diagnostics more. -/
def skip (archive : Archive) (n : Nat) : Archive := { archive with count := archive.count + n }

theorem skip_next (archive : Archive) (n : Nat) : archive.next.skip n = archive.skip (n + 1) := by
  show ({ archive with count := archive.count + 1 + n } : Archive) =
    { archive with count := archive.count + (n + 1) }
  rw [Nat.add_assoc, Nat.add_comm 1 n]

/-- A diagnostic meets an archive that has counted those before it, and knows nothing else of them. The
induction is on the diagnostics before it. -/
theorem getElem?_emitEach (archive : Archive) (receipts : List Receipt) (k : Nat) :
    (archive.emitEach receipts)[k]? =
      receipts[k]?.map fun r => (archive.skip k).emit r.now r.diagnostic r.disk := by
  induction receipts generalizing archive k with
  | nil => rfl
  | cons r receipts ih =>
    have hcons : archive.emitEach (r :: receipts) =
        archive.emit r.now r.diagnostic r.disk :: archive.next.emitEach receipts := by
      rw [emitEach, emit_sink]
    rw [hcons]
    cases k with
    | zero => rfl
    | succ k =>
      rw [List.getElem?_cons_succ, List.getElem?_cons_succ, ih, skip_next]

end Archive

end Diagnostics

/-! ## Decisions -/

namespace Advisor

open Diagnostics (Archive Sink)

variable {archive : Archive} {range : SupportedRange} {toolchain : Toolchain} {now : Moment}
  {survey : Survey} {disk : Disk}

theorem advise_result_discard (range : SupportedRange) (toolchain : Toolchain) (now : Moment)
    (survey : Survey) (disk : Disk) :
    (advise ⟨range, toolchain, .discard⟩ now survey disk).trace.result =
      ToolchainChoice.advise range toolchain survey :=
  advise_result ⟨range, toolchain, .discard⟩ now survey disk fun _ => rfl

theorem advise_result_archive (hnamed : ∀ e, ¬Unnameable archive.directory e) :
    (advise ⟨range, toolchain, .archive archive⟩ now survey disk).trace.result =
      ToolchainChoice.advise range toolchain survey :=
  advise_result ⟨range, toolchain, .archive archive⟩ now survey disk fun d =>
    Sink.emit_result_of_isNamed now d disk hnamed

/-- A decision is made before the sink hears of it, and lost if the sink fails. -/
theorem advise_result_of_unnameable {e : Failure} (h : Unnameable archive.directory e) :
    (advise ⟨range, toolchain, .archive archive⟩ now survey disk).trace.result =
      (ToolchainChoice.advise range toolchain survey).bind fun _ => .error e := by
  rw [← consider_result ⟨range, toolchain, .archive archive⟩ survey]
  have hemit : ∀ d, (Sink.emit (.archive archive) now d disk).trace.result = .error e := by
    intro d
    show (archive.emit now d disk).trace.result = _
    rw [Archive.emit_of_unnameable h]
    rfl
  cases hconsidered : (consider ⟨range, toolchain, .archive archive⟩ survey).result with
  | error e =>
    simp only [advise, hconsidered]
    rfl
  | ok advice =>
    simp only [advise, hconsidered]
    rw [Traced.result_bind_of_ok hconsidered, Traced.result_bind_of_error (hemit _)]
    rfl

end Advisor

namespace Diagnostics.Archive

/-- **Containment.** Unless its folder cannot be named to the system, an archive takes every diagnostic,
at any time and with any disk: the diagnostic is written, or a single warning says why it is not and all
files are as they were. The decision is the one without an archive. In a folder that cannot be named every
diagnostic fails, and with it every decision. In both cases a diagnostic goes to the file, and with the
content, that its number, its time and the diagnostic itself determine, and neither these nor what comes of
it depend on what became of the diagnostics before it. A folder that is named by a text of whole characters
is the one that this text leads to, and its files are shown by their paths. -/
theorem failures_stay_in_archive (directory source : Symbols) (count : Nat) :
    let archive : Archive := { directory, source, count }
    (∀ now d disk,
      ((∀ e, ¬Unnameable directory e) → archive.Outcome now d disk (archive.emit now d disk) ∧
        (archive.emit now d disk).trace.result = .ok ()) ∧
      ∀ e, Unnameable directory e → archive.emit now d disk = ⟨archive.next, disk, .fail e⟩) ∧
    (∀ range toolchain now survey disk,
      let alone := (Advisor.advise ⟨range, toolchain, .discard⟩ now survey disk).trace.result
      let kept := (Advisor.advise ⟨range, toolchain, .archive archive⟩ now survey disk).trace.result
      ((∀ e, ¬Unnameable directory e) → kept = alone) ∧
      ∀ e, Unnameable directory e → kept = alone.bind fun _ => .error e) ∧
    (∀ receipts k, (archive.emitEach receipts)[k]? =
      receipts[k]?.map fun r => (archive.skip k).emit r.now r.diagnostic r.disk) ∧
    (∀ k now d, (archive.skip k).directory = directory ∧
      (archive.skip k).nextName now = fileName now (count + k + 1) ∧
      (archive.skip k).content now d = archive.content now d) ∧
    ∀ text : String, directory = text → '\x00' ∉ text.toList →
      locate directory = .ok (.ok (.ofText text)) ∧
        ∀ now, archive.shownFile now = ((Path.ofText text).child (archive.nextName now)).text := by
  intro archive
  refine ⟨fun now d disk => ⟨fun hnamed => ?_, fun e h => emit_of_unnameable h now d disk⟩, ?_,
    getElem?_emitEach archive, fun k now d => ⟨rfl, rfl, rfl⟩, ?_⟩
  · have houtcome : archive.Outcome now d disk (archive.emit now d disk) := outcome_emit hnamed now d disk
    exact ⟨houtcome, houtcome.result_eq⟩
  · intro range toolchain now survey disk alone kept
    have halone : alone = ToolchainChoice.advise range toolchain survey :=
      Advisor.advise_result_discard range toolchain now survey disk
    rw [halone]
    exact ⟨fun hnamed => Advisor.advise_result_archive hnamed,
      fun e h => Advisor.advise_result_of_unnameable h⟩
  · rintro text rfl hnul
    exact ⟨Files.locate_ofString hnul, fun now => Files.Spelling.text_child_ofText text _⟩

/-- An archive whose folder cannot be made, since there is a file of its name. -/
def notesArchive : Archive := { directory := "notes", source := "go", count := 6 }

theorem emit_notesArchive : notesArchive.emit noon ⟨"m", .noManifestNoEnv⟩ notesDisk =
    ⟨notesArchive.next, notesDisk, .log .warning .diagnostics
      ("Failed to write diagnostic no-manifest-and-no-env to " ++
        "notes/autobuilder-20230801120000000000-7.json: the name is taken")⟩ := by
  have hmade : Files.makeFolders .current ["notes"] notesDisk = (notesDisk, .error .taken) := by
    cbv
  have hstore : store (.ok (.ofText "notes")) (notesArchive.nextName noon)
      (notesArchive.content noon ⟨"m", .noManifestNoEnv⟩) notesDisk = (notesDisk, .error .taken) := by
    have hfolder : Path.ofText "notes" = ⟨.current, ["notes"]⟩ := by decide +kernel
    unfold store
    rw [hfolder]
    dsimp only
    rw [hmade]
  have hmessage : ("Failed to write diagnostic " ++ Decision.Code.noManifestNoEnv.slug ++ " to " ++
      notesArchive.shownFile noon ++ ": " ++ Files.Fault.taken.message : Symbols) =
        "Failed to write diagnostic no-manifest-and-no-env to " ++
          "notes/autobuilder-20230801120000000000-7.json: the name is taken" := by
    decide +kernel
  have hnamed : locate notesArchive.directory = .ok (.ok (.ofText "notes")) :=
    Files.locate_ofString (by decide)
  rw [emit_of_store_eq_error hnamed hstore, hmessage]

theorem failure_stays_in_notesArchive :
    (∀ e, ¬Unnameable "notes" e) ∧
      notesArchive.Outcome noon ⟨"m", .noManifestNoEnv⟩ notesDisk
        ⟨notesArchive.next, notesDisk, .log .warning .diagnostics
          ("Failed to write diagnostic no-manifest-and-no-env to " ++
            "notes/autobuilder-20230801120000000000-7.json: the name is taken")⟩ ∧
      (Advisor.advise ⟨.standard, {}, .archive notesArchive⟩ noon ⟨.missing, .missing⟩
          notesDisk).trace.result =
        (Advisor.advise ⟨.standard, {}, .discard⟩ noon ⟨.missing, .missing⟩ notesDisk).trace.result := by
  have hnamed : ∀ e, ¬Unnameable "notes" e := fun e => Files.not_unnameable_ofString (by decide)
  obtain ⟨hemit, hadvise, -⟩ := failures_stay_in_archive "notes" "go" 6
  have houtcome := ((hemit noon ⟨"m", .noManifestNoEnv⟩ notesDisk).1 hnamed).1
  have hfailed := emit_notesArchive
  unfold notesArchive at hfailed ⊢
  rw [hfailed] at houtcome
  exact ⟨hnamed, houtcome, (hadvise .standard {} noon ⟨.missing, .missing⟩ notesDisk).1 hnamed⟩

/-- An archive in a folder that the system cannot be asked for. -/
def unnameable : Archive := { directory := "a\x00b", source := "go" }

theorem diagnostics_escape_unnameable :
    (unnameable.emit noon ⟨"m", .noManifestNoEnv⟩ notesDisk).trace.result = .error .nulInPath ∧
      (Advisor.advise ⟨.standard, {}, .archive unnameable⟩ noon ⟨.missing, .missing⟩
        notesDisk).trace.result = .error .nulInPath ∧
      ∃ advice, (Advisor.advise ⟨.standard, {}, .discard⟩ noon ⟨.missing, .missing⟩
        notesDisk).trace.result = .ok advice := by
  have hnul : Unnameable unnameable.directory .nulInPath :=
    .nul (fun h hmem => absurd hmem (by simp [unnameable, Symbols.ofString])) (by decide)
  have hadvise : ToolchainChoice.advise .standard {} ⟨.missing, .missing⟩ =
      .ok (Decision.adviceOf .standard {} ⟨.missing, .missing⟩ .noManifestNoEnv) := rfl
  rw [Advisor.advise_result_of_unnameable hnul, Advisor.advise_result_discard, hadvise,
    emit_of_unnameable hnul]
  exact ⟨rfl, rfl, _, rfl⟩

end Diagnostics.Archive

end ToolchainChoice
