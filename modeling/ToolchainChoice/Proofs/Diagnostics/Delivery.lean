import ToolchainChoice.Diagnostics.Advisor
import ToolchainChoice.Proofs.Files.Spelling
import ToolchainChoice.Proofs.Files.Writing
import ToolchainChoice.Proofs.Json.RoundTrip

/-!
# The delivery of a diagnostic

What one more diagnostic makes of a sink: a sink in memory has it behind those that it had, and an
archive has one file more, from which the message and the code can be read, under the number that comes
next. A sink in the log changes nothing but the log. Every sink takes the diagnostic, if an archive can
make its folder and write into it; nothing is assumed of the folder otherwise.
-/
namespace ToolchainChoice

open Files (Path Disk locate)
open Calendar (Moment)

namespace Diagnostics

variable {now : Moment} {disk : Disk} {d : Diagnostic} {sink : Sink} {archive : Archive}
variable {folder : Path} {source : Symbols}

/-- The name of the file for the next diagnostic. -/
def Archive.nextName (archive : Archive) (now : Moment) : String := fileName now (archive.count + 1)

/-- The file for the next diagnostic as it is told of in the log. -/
def Archive.shownFile (archive : Archive) (now : Moment) : Symbols :=
  ((Files.Spelling.ofText archive.directory).child (archive.nextName now)).text

/-- The folder of an archive is there or can be made, and the next file can be written into it. -/
structure Archive.IsWritable (archive : Archive) (folder : Path) (now : Moment) (disk : Disk) :
    Prop where
  named : locate archive.directory = .ok (.ok folder)
  exists_made : ∃ made, Files.makeFolders folder.start folder.names disk = (made, .ok ()) ∧
    ∀ content, ∃ written, made.write (folder.child (archive.nextName now)) content = .ok written

/-- A sink is ready for a diagnostic unless it is an archive that cannot be written to. -/
def Sink.IsReady (sink : Sink) (now : Moment) (disk : Disk) : Prop :=
  match sink with
  | .archive archive => ∃ folder, archive.IsWritable folder now disk
  | _ => True

/-! ## Documents -/

/-- A document tells of a message and a code. Texts of whole characters are read as they are; of the
halves that follow each other a reader makes their characters. -/
structure Tells (document : Json) (source message : Symbols) (code : Decision.Code) : Prop where
  is_object : ∃ members, document = .object members
  whole_message (text : String) : message = text →
    document.member? "markdownMessage" = some (.string text)
  whole_source (text : String) : source = text →
    (document.member? "source").bind (Json.member? "id") =
      some (.string (text ++ "/autobuilder/env-" ++ code.slug))
  message : document.member? "markdownMessage" = some (.string message.paired)
  source : (document.member? "source").bind (Json.member? "id") =
    some (.string (Symbols.paired (source ++ "/autobuilder/env-" ++ code.slug)))

/-- The octets of a file that tells of a message and a code. -/
def IsFileOf (content : ByteArray) (source message : Symbols) (code : Decision.Code) : Prop :=
  ∃ document, (String.fromUTF8? content).bind Json.decode? = some document ∧
    Tells document source message code

/-- What a reader makes of the content of a file. -/
theorem paired_document (source : Symbols) (now : Moment) (d : Diagnostic) :
    (document source now d).paired = .object [
      ("timestamp", .string (String.ofList (now.isoText 'T'))),
      ("source", .object [
        ("id", .string (Symbols.paired (source ++ "/autobuilder/env-" ++ d.code.slug))),
        ("name", .string d.code.title),
        ("extractorName", .string source.paired)]),
      ("markdownMessage", .string d.message.paired),
      ("severity", .string "note"),
      ("visibility", .object [
        ("statusPage", .bool false),
        ("cliSummaryTable", .bool false),
        ("telemetry", .bool true)])] := by
  simp only [document, Json.paired, Json.pairedMembers, Symbols.paired_ofString]

theorem tells_document (source : Symbols) (now : Moment) (d : Diagnostic) :
    Tells (document source now d).paired source d.message d.code := by
  rw [paired_document]
  refine ⟨⟨_, rfl⟩, fun text htext => ?_, fun text htext => ?_, rfl, rfl⟩
  · rw [htext, Symbols.paired_ofString]
    rfl
  · rw [htext, ← Symbols.ofString_append, ← Symbols.ofString_append, Symbols.paired_ofString]
    rfl

theorem hasLiterals_document (source : Symbols) (now : Moment) (d : Diagnostic) :
    (document source now d).HasLiterals := by
  refine .object fun member hmember => ?_
  simp only [List.mem_cons, List.not_mem_nil, or_false] at hmember
  rcases hmember with rfl | rfl | rfl | rfl | rfl
  · exact .string _
  · refine .object fun member hmember => ?_
    simp only [List.mem_cons, List.not_mem_nil, or_false] at hmember
    rcases hmember with rfl | rfl | rfl <;> exact .string _
  · exact .string _
  · exact .string _
  · refine .object fun member hmember => ?_
    simp only [List.mem_cons, List.not_mem_nil, or_false] at hmember
    rcases hmember with rfl | rfl | rfl <;> exact .bool _

/-- The content of the file for a diagnostic. -/
def Archive.content (archive : Archive) (now : Moment) (d : Diagnostic) : ByteArray :=
  (document archive.source now d).encodeIndented.toUTF8

theorem Archive.decode?_content (archive : Archive) (now : Moment) (d : Diagnostic) :
    (String.fromUTF8? (archive.content now d)).bind Json.decode? =
      some (document archive.source now d).paired := by
  unfold content
  rw [Text.Utf8.fromUTF8?_toUTF8, Option.bind_some, Json.decode?_encodeIndented (hasLiterals_document ..)]

theorem Archive.isFileOf_content (archive : Archive) (now : Moment) (d : Diagnostic) :
    IsFileOf (archive.content now d) archive.source d.message d.code :=
  ⟨_, decode?_content archive now d, tells_document ..⟩

/-! ## Archives -/

/-- An archive has counted one diagnostic more, and a file more tells of the message and the code. -/
structure Archive.HasFiled (archive : Archive) (now : Moment) (message : Symbols)
    (code : Decision.Code) (disk : Disk) (sink' : Sink) (disk' : Disk) : Prop where
  counts : sink' = .archive { archive with count := archive.count + 1 }
  exists_file : ∃ folder place content, locate archive.directory = .ok (.ok folder) ∧
    disk'.find (folder.child (archive.nextName now)) = .ok (.entry place (.file content)) ∧
    disk.GainsFile disk' place content ∧ IsFileOf content archive.source message code

variable {located : Except Files.Fault Path} {name : String} {content : ByteArray} {after : Disk}

theorem store_of_made {made written : Disk}
    (hmade : Files.makeFolders folder.start folder.names disk = (made, .ok ()))
    (hwritten : made.write (folder.child name) content = .ok written) :
    store (.ok folder) name content disk = (written, .ok ()) := by
  unfold store
  dsimp only
  rw [hmade]
  dsimp only
  rw [hwritten]

/-- What has been stored is found, and every other file is as it was. -/
theorem exists_of_store (h : store located name content disk = (after, .ok ())) :
    ∃ folder place, located = .ok folder ∧
      after.find (folder.child name) = .ok (.entry place (.file content)) ∧
      disk.GainsFile after place content := by
  unfold store at h
  split at h
  · exact absurd (Prod.mk.inj h).2 (by simp)
  · rename_i folder
    have hfolders := Files.fileAt?_makeFolders folder.start folder.names disk
    split at h
    · exact absurd (Prod.mk.inj h).2 (by simp)
    · rename_i made hmade
      rw [hmade] at hfolders
      split at h
      · rename_i written hwritten
        obtain rfl := (Prod.mk.inj h).1
        obtain ⟨place, hfind, hgains⟩ := Disk.exists_find_of_write hwritten
        exact ⟨folder, place, rfl, hfind, hgains.at_place,
          fun other hne => (hgains.elsewhere other hne).trans (hfolders other)⟩
      · exact absurd (Prod.mk.inj h).2 (by simp)

theorem isStep_fileName (now : Moment) (n : Nat) : Files.IsStep (fileName now n) := by
  have hhead : (fileName now n).toList.head? = some 'a' := by simp [fileName]
  have hne : ∀ name : String, name.toList.head? ≠ some 'a' → fileName now n ≠ name := by
    rintro name hname rfl
    exact hname hhead
  have hempty := hne "" (by decide)
  have hpoint := hne "." (by decide)
  exact ⟨by simp [Files.isName, hempty, hpoint], hne ".." (by decide)⟩

/-- An archive in a folder that is there can be written to, if the name of the next file is free and
not too long. -/
theorem Archive.isWritable_of_find {place : Files.Place} {entries : List (String × Files.Entry)}
    (hnamed : locate archive.directory = .ok (.ok folder))
    (hfind : disk.find folder = .ok (.entry place (.folder entries)))
    (hfree : entries.lookup (archive.nextName now) = none)
    (hname : (archive.nextName now).utf8ByteSize ≤ Files.nameLimit)
    (hpath : (folder.child (archive.nextName now)).text.utf8ByteSize ≤ Files.pathLimit) :
    archive.IsWritable folder now disk where
  named := hnamed
  exists_made := by
    refine ⟨disk, Files.makeFolders_of_find hfind, fun content => ?_⟩
    have hstep : Files.IsStep (archive.nextName now) := isStep_fileName now (archive.count + 1)
    have hspot := Disk.find_child hfind hstep hname (by simp [hfree]) hpath
    rw [hfree] at hspot
    unfold Disk.write
    rw [hspot]
    exact ⟨_, rfl⟩

theorem Archive.emit_of_store {written : Disk} (hlocated : locate archive.directory = .ok located)
    (hstore : store located (archive.nextName now) (archive.content now d) disk = (written, .ok ())) :
    archive.emit now d disk = ⟨{ archive with count := archive.count + 1 }, written,
      .debug .diagnostics
        ("Wrote diagnostic " ++ d.code.slug ++ " to " ++ archive.shownFile now)⟩ := by
  unfold nextName content at hstore
  unfold emit
  dsimp only
  rw [hlocated]
  dsimp only
  rw [hstore]
  rfl

/-- An archive that can be written to has the diagnostic in a file of its own, and remarks on it. -/
theorem Archive.IsWritable.exists_emit (h : archive.IsWritable folder now disk) (d : Diagnostic) :
    ∃ written message, archive.emit now d disk =
        ⟨{ archive with count := archive.count + 1 }, written, .debug .diagnostics message⟩ ∧
      ∃ place, written.find (folder.child (archive.nextName now)) =
          .ok (.entry place (.file (archive.content now d))) ∧
        disk.GainsFile written place (archive.content now d) := by
  obtain ⟨made, hmade, hwrite⟩ := h.exists_made
  obtain ⟨written, hwritten⟩ := hwrite (archive.content now d)
  have hstore := store_of_made hmade hwritten
  obtain ⟨folder', place, hfolder, hfind, hgains⟩ := exists_of_store hstore
  obtain rfl := Except.ok.inj hfolder
  exact ⟨written, _, emit_of_store h.named hstore, place, hfind, hgains⟩

/-! ## Every sink -/

/-- What a sink and a disk become by one message with its code. -/
def Sink.Delivered (sink : Sink) (now : Moment) (message : Symbols) (code : Decision.Code)
    (disk : Disk) (sink' : Sink) (disk' : Disk) : Prop :=
  match sink with
  | .archive archive => archive.HasFiled now message code disk sink' disk'
  | .recording received => sink' = .recording (received ++ [⟨message, code⟩]) ∧ disk' = disk
  | sink => sink' = sink ∧ disk' = disk

/-- A sink that is ready takes the diagnostic. -/
theorem Sink.emit_delivered (h : sink.IsReady now disk) :
    (sink.emit now d disk).trace.result = .ok () ∧
      sink.Delivered now d.message d.code disk (sink.emit now d disk).sink
        (sink.emit now d disk).disk := by
  cases sink with
  | discard => exact ⟨rfl, rfl, rfl⟩
  | logging level => exact ⟨rfl, rfl, rfl⟩
  | recording received => exact ⟨rfl, rfl, rfl⟩
  | archive archive =>
    obtain ⟨folder, hwritable⟩ := h
    obtain ⟨written, message, hemit, place, hfind, hgains⟩ := hwritable.exists_emit d
    unfold emit
    dsimp only
    rw [hemit]
    exact ⟨rfl, rfl, folder, place, _, hwritable.named, hfind, hgains,
      archive.isFileOf_content now d⟩

/-- A sink has a name, unless it is an archive in a folder that the system cannot be asked for. -/
def Sink.IsNamed (sink : Sink) : Prop :=
  match sink with
  | .archive archive => ∀ e, ¬Files.Unnameable archive.directory e
  | _ => True

/-- A sink that has a name does not fail. An archive that cannot be written to says so in the log. -/
theorem Sink.emit_result_of_isNamed (now : Moment) (d : Diagnostic) (disk : Disk)
    (h : sink.IsNamed) : (sink.emit now d disk).trace.result = .ok () := by
  cases sink with
  | discard => rfl
  | logging level => rfl
  | recording received => rfl
  | archive archive =>
    obtain ⟨located, hlocated⟩ := Files.exists_locate h
    unfold emit Archive.emit
    dsimp only
    rw [hlocated]
    dsimp only
    split <;> rfl

/-- A sink that fails has not written anything: an archive whose folder cannot be named. -/
theorem Sink.emit_disk_of_error {e : Failure} (h : (sink.emit now d disk).trace.result = .error e) :
    (sink.emit now d disk).disk = disk := by
  cases sink with
  | discard => rfl
  | logging level => rfl
  | recording received => rfl
  | archive archive =>
    unfold emit Archive.emit at h ⊢
    dsimp only at h ⊢
    cases hlocated : locate archive.directory with
    | error e => rfl
    | ok located =>
      rw [hlocated] at h
      dsimp only at h
      split at h <;> contradiction

end Diagnostics

end ToolchainChoice
