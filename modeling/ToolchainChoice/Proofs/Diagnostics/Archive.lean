import Mathlib
import ToolchainChoice.Proofs.Calendar.TimeStamp
import ToolchainChoice.Proofs.Diagnostics.Delivery
import ToolchainChoice.Proofs.Files.Making
import ToolchainChoice.Proofs.Trace.Silence

/-!
# Nothing is lost in an archive

An archive receives diagnostics one after another. Each of them has a file of its own afterwards, from
which the message, the code and the time can be read back. The number in the name of a file keeps the
names apart; nothing is assumed of the times, which may repeat and go back.

The folder may be there, and empty, or be made with the first diagnostic. It is asked of the folder
that no name or path in it is too long, and that no folder which is made on the way to it has the name
of a file that is to be written.
-/
namespace ToolchainChoice.Diagnostics

open Files (Disk Entry Path Place)
open Calendar (Moment isDigit_of_mem_padded takeWhile_digits)

variable {now now' : Moment} {n n' : Nat}

/-! ## Names -/

theorem isDigit_of_mem_stamp : ∀ c ∈ now.stamp, c.isDigit = true := by
  intro c hc
  unfold Moment.stamp at hc
  simp only [List.mem_append] at hc
  rcases hc with (((((hc | hc) | hc) | hc) | hc) | hc) | hc
  · exact Nat.isDigit_of_mem_toDigits (by decide) (by decide) hc
  all_goals exact isDigit_of_mem_padded c hc

theorem toList_fileName (now : Moment) (n : Nat) :
    (fileName now n).toList = "autobuilder-".toList ++
      (now.stamp ++ '-' :: (Nat.toDigits 10 n ++ ".json".toList)) := by
  unfold fileName
  simp

/-- Diagnostics with different numbers have different files, whatever the time was. The digits of the
time end at the hyphen before the number. -/
theorem number_eq_of_fileName_eq (h : fileName now n = fileName now' n') : n = n' := by
  have hlist := congrArg String.toList h
  rw [toList_fileName, toList_fileName] at hlist
  have hrest := List.append_cancel_left hlist
  have hend : ∀ n, ∀ c ∈ ('-' :: (Nat.toDigits 10 n ++ ".json".toList)).head?, c.isDigit = false := by
    intro n c hc
    obtain rfl := Option.some.inj hc
    rfl
  have hnumber := congrArg (List.dropWhile Char.isDigit) hrest
  rw [(takeWhile_digits isDigit_of_mem_stamp (hend n)).2,
    (takeWhile_digits isDigit_of_mem_stamp (hend n')).2] at hnumber
  have hdigits := List.append_cancel_right (List.cons.inj hnumber).2
  calc n = Nat.ofDigitChars 10 (Nat.toDigits 10 n) 0 := Nat.ofDigitChars_ten_toDigits.symm
    _ = Nat.ofDigitChars 10 (Nat.toDigits 10 n') 0 := by rw [hdigits]
    _ = n' := Nat.ofDigitChars_ten_toDigits

/-! ## Contents -/

/-- A document tells of a diagnostic: of its message, its code, and the time when it was received. -/
structure Describes (document : Json) (source : Symbols) (now : Moment) (d : Diagnostic) : Prop
    extends Tells document source d.message d.code where
  time : ∃ text : String, document.member? "timestamp" = some (.string text) ∧
    Yaml.stampValue text.toList = .ok (.moment now)

theorem describes_document (source : Symbols) (d : Diagnostic) (h : now.OffsetFits) :
    Describes (document source now d).paired source now d where
  toTells := tells_document source now d
  time := by
    rw [paired_document]
    refine ⟨_, rfl, ?_⟩
    rw [String.toList_ofList]
    exact Calendar.stampValue_isoText h

/-! ## One diagnostic -/

namespace Archive

variable {archive : Archive} {disk : Disk} {folder : Path} {place : Place}
variable {entries : List (String × Entry)}

/-- The archive after one diagnostic more. -/
def next (archive : Archive) : Archive := { archive with count := archive.count + 1 }

/-- A file of a name can be added to the entries of the folder. -/
structure HasRoom (folder : Path) (entries : List (String × Entry)) (name : String) : Prop where
  free : entries.lookup name = none
  name_fits : name.utf8ByteSize ≤ Files.nameLimit
  path_fits : (folder.child name).text.utf8ByteSize ≤ Files.pathLimit

/-- One diagnostic adds one file behind those that are there. -/
theorem exists_emit_of_opens (hnamed : Files.locate archive.directory = .ok (.ok folder))
    (hopens : disk.OpensFolder folder place entries)
    (hroom : HasRoom folder entries (archive.nextName now)) (d : Diagnostic) :
    ∃ written message,
      archive.emit now d disk = ⟨archive.next, written, .debug .diagnostics message⟩ ∧
      written.find folder = .ok (.entry place (.folder
        (entries ++ [(archive.nextName now, .file (archive.content now d))]))) ∧
      disk.GainsFile written (place ++ [archive.nextName now]) (archive.content now d) := by
  obtain ⟨made, written, hmade, hwritten, hfind, hgains⟩ :=
    hopens.exists_write (isStep_fileName now (archive.count + 1)) hroom.free hroom.name_fits
      hroom.path_fits (archive.content now d)
  exact ⟨written, _, emit_of_store hnamed (store_of_made hmade hwritten), hfind, hgains⟩

/-! ## A run of diagnostics -/

/-- An archive receives diagnostics in turn, each at its time. -/
def emitAll (archive : Archive) (disk : Disk) : List (Moment × Diagnostic) → Emission Archive Unit
  | [] => ⟨archive, disk, pure ()⟩
  | (now, d) :: emissions =>
    let first := archive.emit now d disk
    let others := first.sink.emitAll first.disk emissions
    ⟨others.sink, others.disk, do first.trace; others.trace⟩

/-- The files that are made of diagnostics, with their names. -/
def filesOf (archive : Archive) (emissions : List (Moment × Diagnostic)) :
    List (String × ByteArray) :=
  emissions.mapIdx fun k e => (fileName e.1 (archive.count + k + 1), archive.content e.1 e.2)

variable {emissions : List (Moment × Diagnostic)} {d : Diagnostic}

theorem filesOf_cons (archive : Archive) (now : Moment) (d : Diagnostic)
    (emissions : List (Moment × Diagnostic)) :
    archive.filesOf ((now, d) :: emissions) =
      (archive.nextName now, archive.content now d) :: archive.next.filesOf emissions := by
  unfold filesOf
  rw [List.mapIdx_cons]
  refine congrArg₂ List.cons rfl (congrArg (List.mapIdx · emissions) ?_)
  funext k e
  have hcount : archive.count + (k + 1) + 1 = archive.count + 1 + k + 1 := by omega
  rw [hcount]
  rfl

theorem exists_number_of_mem_filesOf {file : String × ByteArray}
    (h : file ∈ archive.filesOf emissions) :
    ∃ now n, archive.count < n ∧ file.1 = fileName now n := by
  obtain ⟨k, hk, rfl⟩ := List.mem_mapIdx.mp h
  exact ⟨_, _, by omega, rfl⟩

/-- The file of a diagnostic has another name than those that come after it. -/
theorem ne_of_mem_filesOf_next {file : String × ByteArray} (now : Moment)
    (h : file ∈ archive.next.filesOf emissions) : file.1 ≠ archive.nextName now := by
  obtain ⟨now', n, hn, hname⟩ := exists_number_of_mem_filesOf h
  intro heq
  have hnumber := number_eq_of_fileName_eq (hname.symm.trans heq)
  have hnext : archive.next.count = archive.count + 1 := rfl
  omega

theorem nodup_filesOf (archive : Archive) (emissions : List (Moment × Diagnostic)) :
    ((archive.filesOf emissions).map Prod.fst).Nodup := by
  induction emissions generalizing archive with
  | nil => exact List.nodup_nil
  | cons e emissions ih =>
    obtain ⟨now, d⟩ := e
    rw [filesOf_cons, List.map_cons, List.nodup_cons]
    refine ⟨fun hmem => ?_, ih archive.next⟩
    obtain ⟨file, hfile, hname⟩ := List.mem_map.mp hmem
    exact ne_of_mem_filesOf_next now hfile hname

theorem emitAll_cons {written : Disk} {message : Symbols}
    (hemit : archive.emit now d disk = ⟨archive.next, written, .debug .diagnostics message⟩)
    (emissions : List (Moment × Diagnostic)) :
    (archive.emitAll disk ((now, d) :: emissions)).disk =
        (archive.next.emitAll written emissions).disk ∧
      (archive.emitAll disk ((now, d) :: emissions)).trace.result =
        (archive.next.emitAll written emissions).trace.result := by
  rw [emitAll, hemit]
  exact ⟨rfl, Traced.result_bind_of_ok rfl⟩

theorem HasRoom.append {name other : String} (h : HasRoom folder entries name) (hne : name ≠ other)
    (e : Entry) : HasRoom folder (entries ++ [(other, e)]) name where
  free := by
    rw [List.lookup_append, h.free]
    simp [hne]
  name_fits := h.name_fits
  path_fits := h.path_fits

/-- The entries that files have in a folder. -/
def entriesOf (files : List (String × ByteArray)) : List (String × Entry) :=
  files.map fun file => (file.1, .file file.2)

theorem append_entriesOf_cons (entries : List (String × Entry)) (name : String)
    (content : ByteArray) (files : List (String × ByteArray)) :
    entries ++ entriesOf ((name, content) :: files) =
      entries ++ [(name, .file content)] ++ entriesOf files := by
  rw [List.append_assoc]
  rfl

/-- A run of diagnostics writes all its files and touches no other, and the folder has them behind its
entries. The induction is on the run; the files that come later have greater numbers, so they leave the
first one alone. -/
theorem emitAll_of_opens (hnamed : Files.locate archive.directory = .ok (.ok folder))
    (hopens : disk.OpensFolder folder place entries)
    (hroom : ∀ file ∈ archive.filesOf emissions, HasRoom folder entries file.1) :
    (archive.emitAll disk emissions).trace.result = .ok () ∧
      disk.GainsFiles (archive.emitAll disk emissions).disk place (archive.filesOf emissions) ∧
      (emissions ≠ [] → (archive.emitAll disk emissions).disk.find folder =
        .ok (.entry place (.folder (entries ++ entriesOf (archive.filesOf emissions))))) := by
  induction emissions generalizing archive disk entries with
  | nil => exact ⟨rfl, Disk.gainsFiles_nil disk place, fun hne => absurd rfl hne⟩
  | cons e emissions ih =>
    obtain ⟨now, d⟩ := e
    rw [filesOf_cons] at hroom ⊢
    have hroom := List.forall_mem_cons.mp hroom
    obtain ⟨written, message, hemit, hfind, hgains⟩ := exists_emit_of_opens hnamed hopens hroom.1 d
    obtain ⟨hdisk, htrace⟩ := emitAll_cons hemit emissions
    have hlater : ∀ file ∈ archive.next.filesOf emissions, HasRoom folder
        (entries ++ [(archive.nextName now, .file (archive.content now d))]) file.1 :=
      fun file hfile => (hroom.2 file hfile).append (ne_of_mem_filesOf_next now hfile) _
    obtain ⟨hresult, hfiles, hfolder⟩ :=
      @ih archive.next written _ hnamed (Disk.opensFolder_of_find hfind) hlater
    rw [hdisk, htrace, append_entriesOf_cons]
    refine ⟨hresult, hgains.cons hfiles fun file => ne_of_mem_filesOf_next now, fun _ => ?_⟩
    cases emissions with
    | nil =>
      have hnone : entriesOf (archive.next.filesOf []) = [] := rfl
      rw [hnone, List.append_nil]
      exact hfind
    | cons e emissions => exact hfolder (List.cons_ne_nil e emissions)

theorem getElem?_filesOf {k : Nat} (hcount : archive.count = 0)
    (hk : emissions[k]? = some (now, d)) :
    (archive.filesOf emissions)[k]? = some (fileName now (k + 1), archive.content now d) := by
  unfold filesOf
  rw [List.getElem?_mapIdx, hk, Option.map_some, hcount, Nat.zero_add]

theorem map_fst_filesOf (hcount : archive.count = 0) (emissions : List (Moment × Diagnostic)) :
    (archive.filesOf emissions).map Prod.fst = emissions.mapIdx fun k e => fileName e.1 (k + 1) := by
  unfold filesOf
  refine List.ext_getElem? fun k => ?_
  rw [List.getElem?_map, List.getElem?_mapIdx, List.getElem?_mapIdx, Option.map_map, hcount,
    Nat.zero_add]
  rfl

theorem map_fst_entriesOf (files : List (String × ByteArray)) :
    (entriesOf files).map Prod.fst = files.map Prod.fst := by
  unfold entriesOf
  rw [List.map_map]
  rfl

/-- The folder for a new archive. It is there and empty; or it is missing, its path does not go back, and
it can be made; or, whatever its path, where it leads in the end there is nothing yet, or an empty folder.
Folders that are made on the way of a path that goes back may end up inside, and are the entries then. -/
inductive IsNewFolder (disk : Disk) (folder : Path) (place : Place) : List (String × Entry) → Prop
  | empty (found : disk.find folder = .ok (.entry place (.folder []))) :
      IsNewFolder disk folder place []
  | missing {made : Disk} {e : Entry} (steps : ∀ name ∈ folder.names, Files.IsStep name)
      (absent : ∀ place e, disk.find folder ≠ .ok (.entry place e))
      (makes : Files.makeFolders folder.start folder.names disk = (made, .ok ()))
      (leads : made.find folder = .ok (.entry place e)) : IsNewFolder disk folder place []
  | back {entries : List (String × Entry)} (opens : disk.OpensFolder folder place entries)
      (unused : disk.root.at? place = none ∨ disk.root.at? place = some (.folder [])) :
      IsNewFolder disk folder place entries

/-- A new folder can be opened, and no file is in it before. -/
theorem IsNewFolder.opens_unused (h : IsNewFolder disk folder place entries) :
    disk.OpensFolder folder place entries ∧
      (disk.root.at? place = none ∨ disk.root.at? place = some (.folder [])) := by
  cases h with
  | empty found =>
    obtain ⟨-, -, -, hplace⟩ := Disk.exists_walk_of_find found
    exact ⟨Disk.opensFolder_of_find found, .inr hplace⟩
  | missing steps absent makes leads =>
    obtain ⟨place', hempty, hnone⟩ := Files.exists_find_of_makeFolders steps absent makes
    obtain ⟨rfl, rfl⟩ := Files.Spot.entry.inj (Except.ok.inj (leads.symm.trans hempty))
    exact ⟨⟨_, makes, hempty⟩, .inl hnone⟩
  | back opens unused => exact ⟨opens, unused⟩

/-- No diagnostic has been received, and the folder is empty, or missing and can be made. -/
structure IsNew (archive : Archive) (folder : Path) (disk : Disk) (place : Place)
    (entries : List (String × Entry)) : Prop where
  count_eq : archive.count = 0
  named : Files.locate archive.directory = .ok (.ok folder)
  folder_new : IsNewFolder disk folder place entries

/-- **Archives.** A new archive, in a folder that is empty or missing, has after any run of diagnostics
one file for each of them and no other file. The names are distinct, the one of the diagnostic with
number `k` ends with this number, and the file tells of its message, its code and its time. Where the
clock was meanwhile has no part in this. -/
theorem emitAll_keeps_every_diagnostic (hnew : archive.IsNew folder disk place entries)
    (hroom : ∀ k now d, emissions[k]? = some (now, d) →
      HasRoom folder entries (fileName now (k + 1)))
    (hclock : ∀ e ∈ emissions, e.1.OffsetFits) :
    let names := emissions.mapIdx fun k e => fileName e.1 (k + 1)
    let after := archive.emitAll disk emissions
    after.trace.result = .ok () ∧ names.Nodup ∧
      (∀ name, name ∈ names ↔
        ∃ content, after.disk.root.fileAt? (place ++ [name]) = some content) ∧
      (emissions ≠ [] → ∃ entries', entries'.map Prod.fst = entries.map Prod.fst ++ names ∧
        after.disk.find folder = .ok (.entry place (.folder entries'))) ∧
      ∀ k now d, emissions[k]? = some (now, d) →
        ∃ name content document, names[k]? = some name ∧
          (∃ start, name = start ++ "-" ++ toString (k + 1) ++ ".json") ∧
          after.disk.root.fileAt? (place ++ [name]) = some content ∧
          (String.fromUTF8? content).bind Json.decode? = some document ∧
          Describes document archive.source now d := by
  intro names after
  have hnames : (archive.filesOf emissions).map Prod.fst = names :=
    map_fst_filesOf hnew.count_eq emissions
  have hrooms : ∀ file ∈ archive.filesOf emissions, HasRoom folder entries file.1 := by
    intro file hfile
    obtain ⟨k, hk, rfl⟩ := List.mem_mapIdx.mp hfile
    have hnext := hroom k emissions[k].1 emissions[k].2 (List.getElem?_eq_getElem hk)
    rw [hnew.count_eq, Nat.zero_add]
    exact hnext
  obtain ⟨hopens, hunused⟩ := hnew.folder_new.opens_unused
  obtain ⟨hresult, hfiles, hfolder⟩ := emitAll_of_opens hnew.named hopens hrooms
  refine ⟨hresult, hnames ▸ nodup_filesOf archive emissions, fun name => ⟨?_, ?_⟩, ?_, ?_⟩
  · intro hname
    rw [← hnames] at hname
    obtain ⟨file, hfile, rfl⟩ := List.mem_map.mp hname
    exact ⟨file.2, hfiles.at_place file hfile⟩
  · rintro ⟨content, hcontent⟩
    -- a file with another name would have been there before
    by_contra hname
    have hother : ∀ file ∈ archive.filesOf emissions, place ++ [name] ≠ place ++ [file.1] := by
      intro file hfile heq
      have hsame := List.singleton_inj.mp (List.append_cancel_left heq)
      exact hname (hnames ▸ List.mem_map.mpr ⟨file, hfile, hsame.symm⟩)
    have hbefore := hfiles.elsewhere _ hother
    rw [Entry.fileAt?_concat_of_new hunused] at hbefore
    rw [hbefore] at hcontent
    contradiction
  · intro hne
    refine ⟨_, ?_, hfolder hne⟩
    rw [List.map_append, map_fst_entriesOf, hnames]
  · intro k now d hk
    have hfile := getElem?_filesOf hnew.count_eq hk
    have hname : names[k]? = some (fileName now (k + 1)) := by
      rw [← hnames, List.getElem?_map, hfile]
      rfl
    have hcontent := hfiles.fileAt?_of_mem (List.mem_of_getElem? hfile)
    exact ⟨fileName now (k + 1), archive.content now d, _, hname,
      ⟨"autobuilder-" ++ String.ofList now.stamp, rfl⟩, hcontent, archive.decode?_content now d,
      describes_document archive.source d (hclock _ (List.mem_of_getElem? hk))⟩

/-! ## A clock that stands still and goes back -/

/-- Noon of the first of August, by universal time. -/
def noon : Moment :=
  (Moment.ofNumbers? 2023 8 1 12 0 0 0 (some 0)).get (by decide)

/-- A microsecond before. -/
def beforeNoon : Moment :=
  (Moment.ofNumbers? 2023 8 1 11 59 59 999999 (some 0)).get (by decide)

def aroundNoon : List (Moment × Diagnostic) :=
  [(noon, ⟨"\"none\" \\ 😀", .noManifestNoEnv⟩), (noon, ⟨"\n", .manifestAboveNoEnv⟩),
    (beforeNoon, ⟨"", .noManifestNoEnv⟩)]

/-- An archive whose folder is missing, as is the one that it is to be in. -/
def newArchive : Archive := { directory := "log/new", source := "go" }

def newFolder : Path := ⟨.current, ["log", "new"]⟩

def notesDisk : Disk where
  root := .folder [("notes", .file .empty)]
  here := []

theorem newArchive_isNew : newArchive.IsNew newFolder notesDisk ["log", "new"] [] where
  count_eq := rfl
  named := by
    unfold newArchive
    rw [Files.locate_ofString (by decide)]
    rfl
  folder_new := by
    have hsteps : ∀ name ∈ newFolder.names, Files.IsStep name := by
      simp [newFolder, Files.IsStep, Files.isName]
    have habsent : notesDisk.find newFolder = .error .missing := by cbv
    have hmakes : Files.makeFolders newFolder.start newFolder.names notesDisk =
        ({ notesDisk with root := .folder [("notes", .file .empty),
          ("log", .folder [("new", .folder [])])] }, .ok ()) := by cbv
    refine .missing hsteps (fun place e h => ?_) hmakes (by cbv)
    rw [habsent] at h
    contradiction

theorem newArchive_keeps_every_diagnostic :
    newArchive.IsNew newFolder notesDisk ["log", "new"] [] ∧
      (newArchive.emitAll notesDisk aroundNoon).trace.result = .ok () ∧
      (∃ entries,
        entries.map Prod.fst = ["autobuilder-20230801120000000000-1.json",
          "autobuilder-20230801120000000000-2.json", "autobuilder-20230801115959999999-3.json"] ∧
        (newArchive.emitAll notesDisk aroundNoon).disk.find newFolder =
          .ok (.entry ["log", "new"] (.folder entries))) ∧
      ∃ content document,
        (newArchive.emitAll notesDisk aroundNoon).disk.root.fileAt?
          ["log", "new", "autobuilder-20230801120000000000-1.json"] = some content ∧
        (String.fromUTF8? content).bind Json.decode? = some document ∧
        Describes document "go" noon ⟨"\"none\" \\ 😀", .noManifestNoEnv⟩ := by
  have hroom : ∀ k now d, aroundNoon[k]? = some (now, d) →
      HasRoom newFolder [] (fileName now (k + 1)) := by
    rintro (_ | _ | _ | k) now d hk
    · obtain ⟨rfl, rfl⟩ := Prod.mk.inj (Option.some.inj hk)
      exact ⟨rfl, by decide +kernel, by decide +kernel⟩
    · obtain ⟨rfl, rfl⟩ := Prod.mk.inj (Option.some.inj hk)
      exact ⟨rfl, by decide +kernel, by decide +kernel⟩
    · obtain ⟨rfl, rfl⟩ := Prod.mk.inj (Option.some.inj hk)
      exact ⟨rfl, by decide +kernel, by decide +kernel⟩
    · contradiction
  have hclock : ∀ e ∈ aroundNoon, e.1.OffsetFits := by
    intro e he
    simp only [aroundNoon, List.mem_cons, List.not_mem_nil, or_false] at he
    rcases he with rfl | rfl | rfl <;> exact Moment.offsetFits_of_utc rfl
  have hnames : (aroundNoon.mapIdx fun k e => fileName e.1 (k + 1)) =
      ["autobuilder-20230801120000000000-1.json", "autobuilder-20230801120000000000-2.json",
        "autobuilder-20230801115959999999-3.json"] := by decide +kernel
  obtain ⟨hresult, -, -, hfolder, hfiles⟩ := emitAll_keeps_every_diagnostic
    newArchive_isNew hroom hclock
  obtain ⟨entries, hentries, hfind⟩ := hfolder (List.cons_ne_nil _ _)
  obtain ⟨name, content, document, hname, -, hcontent, hdocument, hdescribes⟩ :=
    hfiles 0 noon _ rfl
  rw [hnames] at hentries hname
  obtain rfl := Option.some.inj hname
  exact ⟨newArchive_isNew, hresult, ⟨entries, hentries, hfind⟩, content, document, hcontent,
    hdocument, hdescribes⟩

end Archive

end ToolchainChoice.Diagnostics
