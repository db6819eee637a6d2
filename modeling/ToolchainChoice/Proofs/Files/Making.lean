import ToolchainChoice.Proofs.Files.Writing

/-!
# Making a folder and filling it

A folder that is made is found where it was made, empty; and one that was there is left as it is. A new
file stands behind the entries that the folder had, and the folder stays where it is.

That a missing folder is empty once it has been made holds of paths without `..` only. With it the
folders that are made on the way may end up inside of the one that is asked for, which then need not be
new either.
-/
namespace ToolchainChoice.Files

variable {root e new : Entry} {folder place : Place} {name : String} {names : List String}
variable {entries : List (String × Entry)}

theorem setEntry_of_lookup_eq_none (h : entries.lookup name = none) :
    setEntry name e entries = entries ++ [(name, e)] := by
  induction entries with
  | nil => rfl
  | cons entry entries ih =>
    have hall := List.forall_mem_cons.mp (List.lookup_eq_none_iff.mp h)
    have hne : ¬entry.1 = name := by
      rintro rfl
      simpa using hall.1
    rw [setEntry, if_neg hne, ih (List.lookup_eq_none_iff.mpr hall.2)]
    rfl

namespace Entry

/-- What is put into a folder that is there. -/
theorem at?_put_concat (h : root.at? folder = some (.folder entries)) :
    (root.put (folder ++ [name]) new).at? folder = some (.folder (setEntry name new entries)) := by
  induction folder generalizing root with
  | nil =>
    obtain rfl := Option.some.inj h
    rfl
  | cons first folder ih =>
    rw [at?] at h
    obtain ⟨c, hc, h⟩ := Option.bind_eq_some_iff.mp h
    rw [List.cons_append, put, at?, child?, Entry.entries, lookup_setEntry_self, Option.bind_some, hc]
    exact ih h

theorem Grows.refl (root : Entry) : root.Grows root := fun _ e he => ⟨e, he, rfl⟩

theorem Grows.trans {a b c : Entry} (h : a.Grows b) (h' : b.Grows c) : a.Grows c := by
  intro place e he
  obtain ⟨e', he', hkind⟩ := h place e he
  obtain ⟨e'', he'', hkind'⟩ := h' place e' he'
  exact ⟨e'', he'', hkind'.trans hkind⟩

theorem Grows.at?_eq_none {a b : Entry} (h : a.Grows b) (hnone : b.at? place = none) :
    a.at? place = none := by
  cases he : a.at? place with
  | none => rfl
  | some e =>
    obtain ⟨e', he', -⟩ := h place e he
    rw [hnone] at he'
    contradiction

/-- There is no file in a folder that is empty or missing. -/
theorem fileAt?_concat_of_new (h : root.at? folder = none ∨ root.at? folder = some (.folder []))
    (name : String) : root.fileAt? (folder ++ [name]) = none := by
  have hnone : root.at? (folder ++ [name]) = none := by
    rcases h with h | h
    · rw [at?_append, h]
      rfl
    · exact at?_concat h
  unfold fileAt?
  rw [hnone]

/-- A tree grows by what is put under a name that is free. -/
theorem grows_put_free (hf : root.at? folder = some (.folder entries))
    (hfree : entries.lookup name = none) (hnew : new.entries = []) :
    root.Grows (root.put (folder ++ [name]) new) := by
  refine grows_put (leadsTo_concat hf) hnew fun e he => ?_
  rw [at?_concat hf, hfree] at he
  contradiction

end Entry

namespace Disk

variable {d d' made : Disk} {p : Path} {content : ByteArray}

/-! ## One folder -/

/-- A folder that has been made is found, empty, where nothing was before. -/
theorem exists_find_of_makeFolder (h : d.makeFolder p = .ok d') :
    ∃ place, d'.find p = .ok (.entry place (.folder [])) ∧ d.root.at? place = none ∧
      d.root.Grows d'.root := by
  unfold makeFolder at h
  split at h
  · contradiction
  · rename_i folder name hfind
    obtain rfl := Except.ok.inj h
    obtain ⟨hfits, hfollow⟩ := follow_of_find_free hfind
    obtain ⟨entries, hf, hlookup⟩ := exists_folder_of_follow_free hfollow
    have hgrows := Entry.grows_put_free hf hlookup (rfl : Entry.empty.entries = [])
    have hput := Entry.at?_put_self d.root .empty (folder ++ [name])
    obtain ⟨n, hle, hwalk⟩ :=
      exists_walk_of_follow_free hgrows hput (by simp [Entry.empty]) hfollow
    refine ⟨folder ++ [name], ?_, (Entry.at?_concat hf).trans hlookup, hgrows⟩
    exact find_of_walk hfits hle hwalk hput
  · contradiction

theorem isFolder_iff : d.isFolder p = true ↔ ∃ place entries,
    d.find p = .ok (.entry place (.folder entries)) := by
  unfold isFolder entryAt
  constructor
  · intro h
    split at h
    · rename_i e he
      split at he
      · rename_i place e' hfind
        obtain rfl := Except.ok.inj he
        cases e' with
        | folder entries => exact ⟨place, entries, hfind⟩
        | file content | link target => contradiction
      · contradiction
      · contradiction
    · contradiction
  · rintro ⟨place, entries, hfind⟩
    rw [hfind]
    rfl

theorem not_isFolder_of_missing (h : ∀ place e, d.find p ≠ .ok (.entry place e)) :
    ¬d.isFolder p = true := by
  intro hfolder
  obtain ⟨place, entries, hfind⟩ := isFolder_iff.mp hfolder
  exact h _ _ hfind

/-- An empty folder leads nowhere. -/
theorem find_child_ne_of_empty (h : d.find p = .ok (.entry folder (.folder [])))
    (hstep : IsStep name) (place : Place) (e : Entry) :
    d.find (p.child name) ≠ .ok (.entry place e) := by
  intro hchild
  obtain ⟨n, -, hwalk, hf⟩ := exists_walk_of_find h
  obtain ⟨n', -, hwalk', -⟩ := exists_walk_of_find hchild
  obtain ⟨m, m', mid, hmid, hlast, -⟩ := hwalk'.exists_of_append
  obtain ⟨-, rfl⟩ := hwalk.unique hmid
  cases hlast with
  | skip _ hn _ => exact absurd hstep.1 (by simp [hn])
  | up _ _ => exact hstep.2 rfl
  | enter hf' _ _ he _ _ | link hf' _ _ he _ _ =>
    rw [hf] at hf'
    obtain rfl := Entry.folder.inj (Option.some.inj hf')
    contradiction

end Disk

/-! ## A folder and those on the way to it -/

section

variable {start : Start} {d made : Disk}

theorem grows_makeFolders (start : Start) (names : List String) (d : Disk) :
    d.root.Grows (makeFolders start names d).1.root := by
  fun_induction makeFolders start names d with
  | case1 => exact .refl _
  | case2 _ _ made fault hmade _ _ ih =>
    rw [hmade] at ih
    exact ih
  | case3 _ _ made hmade _ settle _ ih =>
    rw [hmade] at ih
    refine ih.trans ?_
    simp only [settle]
    split
    · rename_i h
      obtain ⟨-, -, -, hgrows⟩ := Disk.exists_find_of_makeFolder h
      exact hgrows
    · exact .refl _
  | case4 _ _ settle =>
    simp only [settle]
    split
    · rename_i h
      obtain ⟨-, -, -, hgrows⟩ := Disk.exists_find_of_makeFolder h
      exact hgrows
    · exact .refl _

/-- A folder that is there is left as it is. -/
theorem makeFolders_of_entry (h : d.find ⟨start, names⟩ = .ok (.entry place e))
    (hmade : makeFolders start names d = (made, .ok ())) : made = d := by
  unfold makeFolders at hmade
  simp only [Disk.makeFolder_of_find h] at hmade
  exact (Prod.ext_iff.mp hmade).1.symm

/-- The last folder is made, or it is there. -/
theorem makeFolder_or_isFolder {p : Path}
    (h : (match d.makeFolder p with
      | .ok d => (d, (.ok () : Except Fault Unit))
      | .error fault => (d, if d.isFolder p then .ok () else .error fault)) = (made, .ok ())) :
    d.makeFolder p = .ok made ∨ d.isFolder p = true := by
  cases hmade : d.makeFolder p with
  | ok d' =>
    rw [hmade] at h
    exact .inl (congrArg Except.ok (Prod.ext_iff.mp h).1)
  | error fault =>
    rw [hmade] at h
    cases hfolder : d.isFolder p with
    | true => exact .inr rfl
    | false =>
      have hresult := (Prod.ext_iff.mp h).2
      dsimp only at hresult
      rw [hfolder, if_neg (by decide)] at hresult
      contradiction

/-- A missing folder is empty once it has been made. The induction is on the names, of which the last
is made last: in the folder before it, which is either there or new and empty. -/
theorem exists_find_of_makeFolders (hsteps : ∀ name ∈ names, IsStep name)
    (hmissing : ∀ place e, d.find ⟨start, names⟩ ≠ .ok (.entry place e))
    (h : makeFolders start names d = (made, .ok ())) :
    ∃ place, made.find ⟨start, names⟩ = .ok (.entry place (.folder [])) ∧
      d.root.at? place = none := by
  fun_induction makeFolders start names d generalizing made with
  | case1 | case2 => cases h
  | case3 name names mid hmid p settle hfault =>
    rename_i ih
    have hgrows := grows_makeFolders start (name :: names).dropLast d
    rw [hmid] at hgrows
    rcases makeFolder_or_isFolder h with hmade | hfolder
    · obtain ⟨place, hfind, hnone, -⟩ := Disk.exists_find_of_makeFolder hmade
      exact ⟨place, hfind, hgrows.at?_eq_none hnone⟩
    · -- it would be in the folder before it, which was there from the start or has just been made
      exfalso
      let parent : Path := ⟨start, (name :: names).dropLast⟩
      by_cases hparent : ∃ place e, d.find parent = .ok (.entry place e)
      · obtain ⟨place, e, hparent⟩ := hparent
        obtain rfl := makeFolders_of_entry hparent hmid
        exact Disk.not_isFolder_of_missing hmissing hfolder
      · have hfree : ∀ place e, d.find parent ≠ .ok (.entry place e) := fun place e hfind =>
          hparent ⟨place, e, hfind⟩
        have hne := List.cons_ne_nil name names
        have hchild : p = parent.child ((name :: names).getLast hne) :=
          congrArg (Path.mk start) (List.dropLast_concat_getLast hne).symm
        have hlast := hsteps _ (List.getLast_mem hne)
        obtain ⟨place, hempty, -⟩ :=
          ih (fun name hname => hsteps name (List.dropLast_subset _ hname)) hfree hmid
        obtain ⟨place', entries, hfind⟩ := Disk.isFolder_iff.mp hfolder
        rw [hchild] at hfind
        exact Disk.find_child_ne_of_empty hempty hlast _ _ hfind
  | case4 names p settle =>
    rcases makeFolder_or_isFolder h with hmade | hfolder
    · obtain ⟨place, hfind, hnone, -⟩ := Disk.exists_find_of_makeFolder hmade
      exact ⟨place, hfind, hnone⟩
    · exact absurd hfolder (Disk.not_isFolder_of_missing hmissing)

end

/-! ## Files in a folder -/

namespace Disk

variable {d made : Disk} {p : Path} {content : ByteArray}

/-- The folder at a path is there or can be made. It is at `place` then, with `entries`. -/
structure OpensFolder (d : Disk) (p : Path) (place : Place) (entries : List (String × Entry)) :
    Prop where
  exists_made : ∃ made, makeFolders p.start p.names d = (made, .ok ()) ∧
    made.find p = .ok (.entry place (.folder entries))

theorem opensFolder_of_find (h : d.find p = .ok (.entry place (.folder entries))) :
    d.OpensFolder p place entries :=
  ⟨d, makeFolders_of_find h, h⟩

theorem write_free (h : d.find p = .ok (.free folder name)) (content : ByteArray) :
    d.write p content = .ok { d with root := d.root.put (folder ++ [name]) (.file content) } := by
  unfold write
  rw [h]

/-- A file with a new name can be written into the folder. The folder has one entry more, and no other
file is touched. -/
theorem OpensFolder.exists_write (h : d.OpensFolder p place entries) (hstep : IsStep name)
    (hfree : entries.lookup name = none) (hname : name.utf8ByteSize ≤ nameLimit)
    (hpath : (p.child name).text.utf8ByteSize ≤ pathLimit) (content : ByteArray) :
    ∃ made written, makeFolders p.start p.names d = (made, .ok ()) ∧
      made.write (p.child name) content = .ok written ∧
      written.find p = .ok (.entry place (.folder (entries ++ [(name, .file content)]))) ∧
      d.GainsFile written (place ++ [name]) content := by
  obtain ⟨made, hmade, hfind⟩ := h.exists_made
  obtain ⟨n, hle, hwalk, hf⟩ := exists_walk_of_find hfind
  have hspot := find_child hfind hstep hname (by simp [hfree]) hpath
  rw [hfree] at hspot
  have hgrows := Entry.grows_put_free hf hfree (rfl : (Entry.file content).entries = [])
  have hentries : (made.root.put (place ++ [name]) (.file content)).at? place =
      some (.folder (entries ++ [(name, .file content)])) := by
    rw [Entry.at?_put_concat hf, setEntry_of_lookup_eq_none hfree]
  have hmakes := fileAt?_makeFolders p.start p.names d
  rw [hmade] at hmakes
  have hgains : made.GainsFile { made with root := made.root.put (place ++ [name]) (.file content) }
      (place ++ [name]) content := by
    refine gainsFile_put (Entry.leadsTo_concat hf) fun e he => ?_
    rw [Entry.at?_concat hf, hfree] at he
    contradiction
  refine ⟨made, _, hmade, write_free hspot content, ?_, hgains.at_place, fun other hne => ?_⟩
  · exact find_of_walk (fits_of_find hfind) hle (hwalk.of_grows hgrows) hentries
  · exact (hgains.elsewhere other hne).trans (hmakes other)

/-- The second disk has files in a folder, and all other files of the first. -/
structure GainsFiles (d d' : Disk) (place : Place) (files : List (String × ByteArray)) : Prop where
  at_place : ∀ file ∈ files, d'.root.fileAt? (place ++ [file.1]) = some file.2
  elsewhere : ∀ other, (∀ file ∈ files, other ≠ place ++ [file.1]) →
    d'.root.fileAt? other = d.root.fileAt? other

theorem gainsFiles_nil (d : Disk) (place : Place) : d.GainsFiles d place [] :=
  ⟨List.forall_mem_nil _, fun _ _ => rfl⟩

theorem GainsFiles.fileAt?_of_mem {d' : Disk} {files : List (String × ByteArray)}
    (h : d.GainsFiles d' place files) (hfile : (name, content) ∈ files) :
    d'.root.fileAt? (place ++ [name]) = some content :=
  h.at_place (name, content) hfile

/-- What is gained later, under other names, leaves the first file alone. -/
theorem GainsFile.cons {mid d' : Disk} {files : List (String × ByteArray)}
    (h : d.GainsFile mid (place ++ [name]) content) (hlater : mid.GainsFiles d' place files)
    (hne : ∀ other ∈ files, other.1 ≠ name) :
    d.GainsFiles d' place ((name, content) :: files) where
  at_place := by
    have hfile := hlater.elsewhere (place ++ [name]) fun other hother heq =>
      hne other hother (List.singleton_inj.mp (List.append_cancel_left heq)).symm
    exact List.forall_mem_cons.mpr ⟨hfile.trans h.at_place, hlater.at_place⟩
  elsewhere other hother := by
    have hother := List.forall_mem_cons.mp hother
    exact (hlater.elsewhere other hother.2).trans (h.elsewhere other hother.1)

end Disk

end ToolchainChoice.Files
