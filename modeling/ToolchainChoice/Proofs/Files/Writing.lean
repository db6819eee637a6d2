import ToolchainChoice.Proofs.Files.Listing

/-!
# Writing files

A file that has been written is found at the path that it was written to, with its content, and every
other file is as it was. Folders that are made on the way to a file are no files, so making them
leaves all files as they were, whether it succeeds or not.
-/
namespace ToolchainChoice.Files

variable {root root' e new : Entry} {folder here place other : Place} {name : String}
variable {names : List String} {entries : List (String × Entry)} {links : Nat}

theorem lookup_setEntry_self : (setEntry name e entries).lookup name = some e := by
  induction entries with
  | nil => simp [setEntry]
  | cons entry entries ih =>
    by_cases h : entry.1 = name
    · simp [setEntry, h]
    · have hne : (name == entry.1) = false := by simpa using fun h' : name = entry.1 => h h'.symm
      rw [setEntry, if_neg h, List.lookup_cons, hne]
      exact ih

theorem lookup_setEntry_of_ne {name' : String} (hne : name' ≠ name) :
    (setEntry name e entries).lookup name' = entries.lookup name' := by
  have hname : (name' == name) = false := by simpa using hne
  induction entries with
  | nil => simp [setEntry, List.lookup_cons, hname]
  | cons entry entries ih =>
    by_cases h : entry.1 = name
    · subst h
      rw [setEntry, if_pos rfl, List.lookup_cons, List.lookup_cons, hname]
    · rw [setEntry, if_neg h, List.lookup_cons, List.lookup_cons, ih]

namespace Entry

/-! ## A tree with an entry put into it -/

theorem at?_of_entries_eq_nil (h : e.entries = []) (hne : place ≠ []) : e.at? place = none := by
  cases place with
  | nil => contradiction
  | cons name place => simp [at?, child?, h]

theorem at?_put_append (e new : Entry) (place other : Place) :
    (e.put place new).at? (place ++ other) = new.at? other := by
  induction place generalizing e with
  | nil => rfl
  | cons name place ih =>
    rw [put, List.cons_append, at?, child?, entries, lookup_setEntry_self]
    exact ih _

theorem at?_put_self (e new : Entry) (place : Place) : (e.put place new).at? place = some new := by
  have h := at?_put_append e new place []
  rw [List.append_nil] at h
  exact h

theorem at?_put_of_apart (e new : Entry) (h : ¬ place <+: other) (h' : ¬ other <+: place) :
    (e.put place new).at? other = e.at? other := by
  induction place generalizing e other with
  | nil => exact absurd List.nil_prefix h
  | cons name place ih =>
    cases other with
    | nil => exact absurd List.nil_prefix h'
    | cons name' other =>
      rw [put, at?, at?, child?, entries]
      by_cases hname : name' = name
      · subst hname
        have hplace : ¬ place <+: other := fun hp => h (List.cons_prefix_cons.mpr ⟨rfl, hp⟩)
        have hother : ¬ other <+: place := fun hp => h' (List.cons_prefix_cons.mpr ⟨rfl, hp⟩)
        rw [lookup_setEntry_self, Option.bind_some, ih _ hplace hother]
        cases e.child? name' with
        | some c => rfl
        | none =>
          refine at?_of_entries_eq_nil rfl ?_
          rintro rfl
          exact hother List.nil_prefix
      · rw [lookup_setEntry_of_ne hname]
        rfl

/-- All that is on the way to a place is a folder. -/
def LeadsTo (root : Entry) (place : Place) : Prop :=
  ∀ before, before <+: place → before ≠ place → ∃ entries, root.at? before = some (.folder entries)

theorem leadsTo_of_at? (h : root.at? place = some e) : root.LeadsTo place := by
  rintro before ⟨after, rfl⟩ hne
  rw [at?_append] at h
  obtain ⟨e', he', hafter⟩ := Option.bind_eq_some_iff.mp h
  cases e' with
  | folder entries => exact ⟨entries, he'⟩
  | file content | link target =>
    rw [at?_of_entries_eq_nil rfl fun hnil => hne (by simp [hnil])] at hafter
    contradiction

theorem leadsTo_concat (h : root.at? folder = some (.folder entries)) :
    root.LeadsTo (folder ++ [name]) := by
  intro before hbefore hne
  rcases List.prefix_concat_iff.mp hbefore with heq | hprefix
  · exact absurd heq hne
  · by_cases heq : before = folder
    · subst heq
      exact ⟨entries, h⟩
    · exact leadsTo_of_at? h before hprefix heq

/-- Beside the place itself nothing changes but what folders on the way to it hold. Neither the new
entry nor the one that is replaced may have entries of its own. -/
theorem bare_at?_put (hto : root.LeadsTo place) (hnew : new.entries = [])
    (hold : ∀ e, root.at? place = some e → e.entries = []) (hne : other ≠ place) :
    ((root.put place new).at? other).map bare = (root.at? other).map bare := by
  by_cases hbefore : other <+: place
  · -- a folder on the way, before and after
    obtain ⟨entries, hentries⟩ := hto other hbefore hne
    obtain ⟨after, rfl⟩ := hbefore
    have hput := leadsTo_of_at? (at?_put_self root new (other ++ after))
    obtain ⟨entries', hentries'⟩ := hput other (List.prefix_append other after) hne
    rw [hentries, hentries']
    rfl
  · by_cases hbelow : place <+: other
    · -- there is nothing below either entry
      obtain ⟨rest, rfl⟩ := hbelow
      have hrest : rest ≠ [] := fun hnil => hne (by simp [hnil])
      rw [at?_put_append, at?_of_entries_eq_nil hnew hrest, at?_append]
      cases he : root.at? place with
      | none => rfl
      | some e => rw [Option.bind_some, at?_of_entries_eq_nil (hold e he) hrest]
    · rw [at?_put_of_apart root new hbelow hbefore]

/-- The content of the file at a place. -/
def fileAt? (root : Entry) (place : Place) : Option ByteArray :=
  match root.at? place with
  | some (.file content) => some content
  | _ => none

theorem fileAt?_eq_of_bare (h : (root'.at? place).map bare = (root.at? place).map bare) :
    root'.fileAt? place = root.fileAt? place := by
  unfold fileAt?
  cases he : root.at? place with
  | none =>
    rw [he, Option.map_none, Option.map_eq_none_iff] at h
    rw [h]
  | some e =>
    rw [he] at h
    obtain ⟨e', he', hbare⟩ := Option.map_eq_some_iff.mp h
    rw [he']
    cases e <;> cases e' <;> cases hbare <;> rfl

theorem grows_put (hto : root.LeadsTo place) (hnew : new.entries = [])
    (hold : ∀ e, root.at? place = some e → e.entries = [] ∧ new.kind = e.kind) :
    root.Grows (root.put place new) := by
  intro other e he
  by_cases h : other = place
  · subst h
    exact ⟨new, at?_put_self root new other, (hold e he).2⟩
  · have hbare := bare_at?_put hto hnew (fun e he => (hold e he).1) h
    rw [he] at hbare
    obtain ⟨e', he', hbare⟩ := Option.map_eq_some_iff.mp hbare
    refine ⟨e', he', ?_⟩
    cases e <;> cases e' <;> cases hbare <;> rfl

end Entry

/-! ## Names that are free -/

/-- A free name is missing in a folder that is there. -/
theorem exists_folder_of_follow_free {lastToo : Bool}
    (h : follow root lastToo links here names = .ok (.free folder name)) :
    ∃ entries, root.at? folder = some (.folder entries) ∧ entries.lookup name = none := by
  fun_induction follow root lastToo links here names with
  | case1 | case8 =>
    have hspot := Except.ok.inj h
    contradiction
  | case2 | case5 | case7 | case9 | case12 | case13 => contradiction
  | case3 _ _ _ _ _ _ _ ih => exact ih h
  | case4 _ _ _ _ _ _ ih => exact ih h
  | case6 links here name' names entries hf hn hu hs hlookup hlast =>
    obtain ⟨rfl, rfl⟩ := Spot.free.inj (Except.ok.inj h)
    exact ⟨entries, hf, hlookup⟩
  | case10 _ _ _ _ _ _ _ _ _ _ _ _ _ ih => exact ih h
  | case11 _ _ _ _ _ _ _ _ _ _ _ _ ih => exact ih h

/-- Where names led to a free name they lead to what is put there. The induction is that of
following; only the last step is one that could not be made before. -/
theorem exists_walk_of_follow_free {lastToo : Bool} (hg : root.Grows root')
    (hput : root'.at? (folder ++ [name]) = some new) (hnew : ∀ target, new ≠ .link target)
    (h : follow root lastToo links here names = .ok (.free folder name)) :
    ∃ n, n ≤ links ∧ Walk root' here names n (folder ++ [name]) := by
  fun_induction follow root lastToo links here names with
  | case1 | case8 =>
    have hspot := Except.ok.inj h
    contradiction
  | case2 | case5 | case7 | case9 | case12 | case13 => contradiction
  | case3 links here name' names entries hf hn ih =>
    obtain ⟨n, hle, hwalk⟩ := ih h
    obtain ⟨entries', hf'⟩ := hg.exists_folder hf
    exact ⟨n, hle, .skip hf' (by simpa using hn) hwalk⟩
  | case4 links here names entries hf hn ih =>
    obtain ⟨n, hle, hwalk⟩ := ih h
    obtain ⟨entries', hf'⟩ := hg.exists_folder hf
    exact ⟨n, hle, .up hf' hwalk⟩
  | case6 links here name' names entries hf hn hu hs hlookup hlast =>
    obtain ⟨rfl, rfl⟩ := Spot.free.inj (Except.ok.inj h)
    obtain rfl := List.isEmpty_iff.mp hlast
    obtain ⟨entries', hf'⟩ := hg.exists_folder hf
    have hentry := (Entry.at?_concat hf').symm.trans hput
    have hstep := isStep_of_not hn hu
    exact ⟨0, Nat.zero_le _, .enter hf' hstep (Nat.le_of_not_lt hs) hentry hnew .done⟩
  | case10 here name' names entries hf hn hu hs target hlookup hlast links start ih =>
    obtain ⟨n, hle, hwalk⟩ := ih h
    obtain ⟨n₁, n₂, mid, htarget, hnames, rfl⟩ := hwalk.exists_of_append
    obtain ⟨entries', hf'⟩ := hg.exists_folder hf
    have hlink := hg.at?_link ((Entry.at?_concat hf).trans hlookup)
    rw [Entry.at?_concat hf'] at hlink
    refine ⟨n₁ + n₂ + 1, by omega, ?_⟩
    exact .link hf' (isStep_of_not hn hu) (Nat.le_of_not_lt hs) hlink htarget hnames
  | case11 links here name' names entries hf hn hu hs e hl hlookup ih =>
    obtain ⟨n, hle, hwalk⟩ := ih h
    obtain ⟨entries', hf'⟩ := hg.exists_folder hf
    obtain ⟨e', he', hl'⟩ := hg.exists_not_link ((Entry.at?_concat hf).trans hlookup) hl
    rw [Entry.at?_concat hf'] at he'
    exact ⟨n, hle, .enter hf' (isStep_of_not hn hu) (Nat.le_of_not_lt hs) he' hl' hwalk⟩

/-- A path that leads to an entry leads to one also if a link at its end is not followed. -/
theorem exists_follow_false_of_follow (h : follow root true links here names = .ok (.entry place e)) :
    ∃ place' e', follow root false links here names = .ok (.entry place' e') := by
  fun_induction follow root true links here names with
  | case1 links here e' he => exact ⟨here, e', by rw [follow, he]⟩
  | case2 | case5 | case7 | case9 | case12 | case13 => contradiction
  | case3 links here name names entries hf hn ih =>
    obtain ⟨place', e', h'⟩ := ih h
    exact ⟨place', e', by rw [follow, hf]; simpa [hn] using h'⟩
  | case4 links here names entries hf hn ih =>
    obtain ⟨place', e', h'⟩ := ih h
    exact ⟨place', e', by rw [follow, hf]; simpa [hn] using h'⟩
  | case6 =>
    have hspot := Except.ok.inj h
    contradiction
  | case8 links here name names entries hf hn hu hs target hlookup hlast => simp at hlast
  | case10 here name names entries hf hn hu hs target hlookup hlast links start ih =>
    cases names with
    | nil => exact ⟨here ++ [name], .link target, by rw [follow, hf]; simp [hn, hu, hs, hlookup]⟩
    | cons name' names =>
      obtain ⟨place', e', h'⟩ := ih h
      exact ⟨place', e', by rw [follow, hf]; simpa [hn, hu, hs, hlookup, start] using h'⟩
  | case11 links here name names entries hf hn hu hs e' hl hlookup ih =>
    obtain ⟨place', e'', h'⟩ := ih h
    refine ⟨place', e'', ?_⟩
    rw [follow, hf]
    cases e' with
    | link target => exact absurd rfl (hl target)
    | file content => simpa [hn, hu, hs, hlookup] using h'
    | folder entries' => simpa [hn, hu, hs, hlookup] using h'

namespace Disk

variable {d d' : Disk} {p : Path} {content : ByteArray}

/-! ## Files -/

/-- The second disk has a file at a place, and all other files of the first. -/
structure GainsFile (d d' : Disk) (place : Place) (content : ByteArray) : Prop where
  at_place : d'.root.fileAt? place = some content
  elsewhere : ∀ other, other ≠ place → d'.root.fileAt? other = d.root.fileAt? other

theorem gainsFile_put (hto : d.root.LeadsTo place)
    (hold : ∀ e, d.root.at? place = some e → e.entries = []) :
    d.GainsFile { d with root := d.root.put place (.file content) } place content where
  at_place := by
    change (d.root.put place (.file content)).fileAt? place = some content
    unfold Entry.fileAt?
    rw [Entry.at?_put_self]
  elsewhere other hne := Entry.fileAt?_eq_of_bare (Entry.bare_at?_put hto rfl hold hne)

theorem find_of_walk {n : Nat} (hfits : p.text.utf8ByteSize ≤ pathLimit) (hle : n ≤ linkLimit)
    (h : Walk d.root (d.startPlace p) p.names n place) (he : d.root.at? place = some e) :
    d.find p = .ok (.entry place e) := by
  unfold find
  rw [if_neg (Nat.not_lt.mpr hfits)]
  exact follow_of_walk h hle he

theorem find_child (h : d.find p = .ok (.entry place (.folder entries))) (hn : IsStep name)
    (hs : name.utf8ByteSize ≤ nameLimit) (hl : ∀ target, entries.lookup name ≠ some (.link target))
    (hfits : (p.child name).text.utf8ByteSize ≤ pathLimit) :
    d.find (p.child name) = .ok (match entries.lookup name with
      | none => .free place name
      | some e => .entry (place ++ [name]) e) := by
  obtain ⟨n, hle, hwalk, hfolder⟩ := exists_walk_of_find h
  have hstart : d.startPlace (p.child name) = d.startPlace p := rfl
  unfold find
  rw [if_neg (Nat.not_lt.mpr hfits), hstart]
  exact (follow_append_of_walk hwalk hle).trans (follow_last hfolder hn hs hl)

theorem follow_of_find_free {lastToo : Bool} (h : d.find p lastToo = .ok (.free folder name)) :
    p.text.utf8ByteSize ≤ pathLimit ∧
      follow d.root lastToo linkLimit (d.startPlace p) p.names = .ok (.free folder name) := by
  unfold find at h
  split at h
  · contradiction
  · rename_i hfits
    exact ⟨Nat.le_of_not_lt hfits, h⟩

/-- What has been written is found where it was written to. -/
theorem exists_find_of_write (h : d.write p content = .ok d') :
    ∃ place, d'.find p = .ok (.entry place (.file content)) ∧ d.GainsFile d' place content := by
  unfold write at h
  split at h
  · -- a file is written over: the walk to it is the same, since contents do not matter to it
    rename_i place old hfind
    obtain rfl := Except.ok.inj h
    obtain ⟨n, hle, hwalk, he⟩ := exists_walk_of_find hfind
    have hold : ∀ e, d.root.at? place = some e →
        e.entries = [] ∧ (Entry.file content).kind = e.kind := by
      intro e he'
      obtain rfl := Option.some.inj (he.symm.trans he')
      exact ⟨rfl, rfl⟩
    have hto := Entry.leadsTo_of_at? he
    have hgrows := Entry.grows_put hto rfl hold
    refine ⟨place, ?_, gainsFile_put hto fun e he => (hold e he).1⟩
    exact find_of_walk (fits_of_find hfind) hle (hwalk.of_grows hgrows) (Entry.at?_put_self ..)
  · contradiction
  · -- the name was free: there was no walk to it, but one to its folder
    rename_i folder name hfind
    obtain rfl := Except.ok.inj h
    obtain ⟨hfits, hfollow⟩ := follow_of_find_free hfind
    obtain ⟨entries, hf, hlookup⟩ := exists_folder_of_follow_free hfollow
    have hnone : d.root.at? (folder ++ [name]) = none := (Entry.at?_concat hf).trans hlookup
    have hold : ∀ e, d.root.at? (folder ++ [name]) = some e →
        e.entries = [] ∧ (Entry.file content).kind = e.kind := by
      intro e he
      rw [hnone] at he
      contradiction
    have hto : d.root.LeadsTo (folder ++ [name]) := Entry.leadsTo_concat hf
    have hgrows := Entry.grows_put hto rfl hold
    have hput := Entry.at?_put_self d.root (.file content) (folder ++ [name])
    obtain ⟨n, hle, hwalk⟩ := exists_walk_of_follow_free hgrows hput (by simp) hfollow
    refine ⟨folder ++ [name], ?_, gainsFile_put hto fun e he => (hold e he).1⟩
    exact find_of_walk hfits hle hwalk hput
  · contradiction

/-! ## Folders -/

theorem fileAt?_of_makeFolder (h : d.makeFolder p = .ok d') (place : Place) :
    d'.root.fileAt? place = d.root.fileAt? place := by
  unfold makeFolder at h
  split at h
  · contradiction
  · rename_i folder name hfind
    obtain rfl := Except.ok.inj h
    obtain ⟨hfits, hfollow⟩ := follow_of_find_free hfind
    obtain ⟨entries, hf, hlookup⟩ := exists_folder_of_follow_free hfollow
    have hnone : d.root.at? (folder ++ [name]) = none := (Entry.at?_concat hf).trans hlookup
    by_cases hplace : place = folder ++ [name]
    · subst hplace
      unfold Entry.fileAt?
      rw [Entry.at?_put_self, hnone]
      rfl
    · refine Entry.fileAt?_eq_of_bare (Entry.bare_at?_put (Entry.leadsTo_concat hf) rfl ?_ hplace)
      intro e he
      rw [hnone] at he
      contradiction
  · contradiction

theorem makeFolder_of_find (h : d.find p = .ok (.entry place e)) :
    d.makeFolder p = .error .taken := by
  have hfits := Nat.not_lt.mpr (fits_of_find h)
  unfold find at h
  rw [if_neg hfits] at h
  obtain ⟨place', e', hfollow⟩ := exists_follow_false_of_follow h
  unfold makeFolder find
  rw [if_neg hfits, hfollow]

end Disk

theorem makeFolders_of_find {d : Disk} {start : Start}
    (h : d.find ⟨start, names⟩ = .ok (.entry place (.folder entries))) :
    makeFolders start names d = (d, .ok ()) := by
  have hfolder : d.isFolder ⟨start, names⟩ = true := by
    unfold Disk.isFolder Disk.entryAt
    rw [h]
    rfl
  unfold makeFolders
  simp [Disk.makeFolder_of_find h, hfolder]

/-- Folders are no files. The induction is on the names, of which the last is made last. -/
theorem fileAt?_makeFolders (start : Start) (names : List String) (d : Disk) (place : Place) :
    (makeFolders start names d).1.root.fileAt? place = d.root.fileAt? place := by
  fun_induction makeFolders start names d with
  | case1 => rfl
  | case2 _ _ made fault hmade _ _ ih =>
    rw [hmade] at ih
    exact ih
  | case3 _ _ made hmade _ settle _ ih =>
    rw [hmade] at ih
    refine Eq.trans ?_ ih
    simp only [settle]
    split
    · rename_i h
      exact Disk.fileAt?_of_makeFolder h place
    · rfl
  | case4 _ _ settle =>
    simp only [settle]
    split
    · rename_i h
      exact Disk.fileAt?_of_makeFolder h place
    · rfl

end ToolchainChoice.Files
