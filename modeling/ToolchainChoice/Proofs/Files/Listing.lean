import ToolchainChoice.Proofs.Files.RealPath

/-!
# The order in which folders are listed

A tree keeps the entries of a folder in some order, and nothing that the system does with a path
depends on it. Two trees are compared here by what they hold at each place. Names within one folder
have to be distinct where it matters which entries there are and not only what is found.
-/
namespace ToolchainChoice.Files

variable {root root' e e' : Entry} {here place : Place} {name : String} {names : List String}
variable {entries entries' : List (String × Entry)} {links n : Nat}

namespace Entry

/-! ## Distinct names -/

/-- What holds of a folder if it holds of all in it holds of every tree. -/
theorem forall_of_folder {p : Entry → Prop} (hfile : ∀ content, p (.file content))
    (hlink : ∀ target, p (.link target))
    (hfolder : ∀ entries, (∀ x ∈ entries, p x.2) → p (.folder entries)) : ∀ e, p e
  | .file content => hfile content
  | .link target => hlink target
  | .folder entries => hfolder entries fun x _ => forall_of_folder hfile hlink hfolder x.2
  termination_by e => sizeOf e
  decreasing_by
    have hmem := List.sizeOf_lt_of_mem ‹x ∈ entries›
    have hpair : sizeOf x = 1 + sizeOf x.1 + sizeOf x.2 := rfl
    rw [folder.sizeOf_spec]
    omega

/-- No folder of the tree has two entries of one name. -/
def HasDistinctNames (e : Entry) : Prop :=
  ∀ place entries, e.at? place = some (.folder entries) → (entries.map Prod.fst).Nodup

theorem HasDistinctNames.at (h : root.HasDistinctNames) (he : root.at? place = some e) :
    e.HasDistinctNames := by
  intro rest entries hentries
  refine h (place ++ rest) entries ?_
  rw [at?_append, he]
  exact hentries

theorem at?_singleton : (Entry.folder entries).at? [name] = entries.lookup name := by
  change (entries.lookup name).bind (·.at? []) = entries.lookup name
  cases entries.lookup name <;> rfl

theorem lookup_eq_some_of_mem (hd : (entries.map Prod.fst).Nodup) (h : (name, e) ∈ entries) :
    entries.lookup name = some e := by
  obtain ⟨before, after, rfl⟩ := List.append_of_mem h
  refine List.lookup_eq_some_iff.mpr ⟨before, after, rfl, ?_⟩
  intro x hx
  rw [List.map_append, List.map_cons] at hd
  have hne := (List.nodup_append.mp hd).2.2 x.1 (List.mem_map_of_mem hx) name List.mem_cons_self
  simpa using fun h => hne h.symm

theorem mem_of_lookup_eq_some (h : entries.lookup name = some e) : (name, e) ∈ entries := by
  obtain ⟨before, after, rfl, -⟩ := List.lookup_eq_some_iff.mp h
  exact List.mem_append_right before List.mem_cons_self

@[simp]
theorem hasDistinctNames_file (content : ByteArray) : (Entry.file content).HasDistinctNames := by
  intro place entries h
  cases place <;> cases h

@[simp]
theorem hasDistinctNames_link (target : String) : (Entry.link target).HasDistinctNames := by
  intro place entries h
  cases place <;> cases h

@[simp]
theorem hasDistinctNames_folder_iff :
    (Entry.folder entries).HasDistinctNames ↔
      (entries.map Prod.fst).Nodup ∧ ∀ x ∈ entries, x.2.HasDistinctNames := by
  constructor
  · intro h
    have hd : (entries.map Prod.fst).Nodup := h [] entries rfl
    refine ⟨hd, ?_⟩
    rintro ⟨name, e⟩ hmem
    have hplace : (Entry.folder entries).at? [name] = some e :=
      at?_singleton.trans (lookup_eq_some_of_mem hd hmem)
    exact h.at hplace
  · rintro ⟨hd, h⟩ place found hfound
    cases place with
    | nil =>
      obtain rfl := Entry.folder.inj (Option.some.inj hfound)
      exact hd
    | cons name place =>
      obtain ⟨e, he, hplace⟩ := Option.bind_eq_some_iff.mp hfound
      exact h (name, e) (mem_of_lookup_eq_some he) place found hplace

/-! ## Trees that hold the same -/

/-- An entry alone, without what a folder holds. -/
def bare : Entry → Entry
  | .folder _ => .empty
  | e => e

/-- The trees hold the same at every place, though they may list it in another order. -/
def HoldsSame (a b : Entry) : Prop := ∀ place, (a.at? place).map bare = (b.at? place).map bare

theorem HoldsSame.refl (e : Entry) : e.HoldsSame e := fun _ => rfl

theorem HoldsSame.symm (h : e.HoldsSame e') : e'.HoldsSame e := fun place => (h place).symm

theorem HoldsSame.bare_eq (h : e.HoldsSame e') : e.bare = e'.bare := Option.some.inj (h [])

theorem HoldsSame.isFolder_eq (h : e.HoldsSame e') : e.isFolder = e'.isFolder := by
  have hbare := h.bare_eq
  cases e <;> cases e' <;> first | rfl | cases hbare

theorem HoldsSame.exists_at (h : root.HoldsSame root') (he : root.at? place = some e) :
    ∃ e', root'.at? place = some e' ∧ e.HoldsSame e' := by
  have hplace := h place
  rw [he] at hplace
  obtain ⟨e', he', -⟩ := Option.map_eq_some_iff.mp hplace.symm
  refine ⟨e', he', fun rest => ?_⟩
  have hrest := h (place ++ rest)
  rw [at?_append, at?_append, he, he'] at hrest
  exact hrest

theorem HoldsSame.grows (h : root.HoldsSame root') : root.Grows root' := by
  intro place e he
  obtain ⟨e', he', hsame⟩ := h.exists_at he
  have hbare := hsame.bare_eq
  refine ⟨e', he', ?_⟩
  cases e <;> cases e' <;> cases hbare <;> rfl

theorem HoldsSame.exists_folder (h : root.HoldsSame root')
    (hf : root.at? place = some (.folder entries)) :
    ∃ entries', root'.at? place = some (.folder entries') :=
  h.grows.exists_folder hf

theorem HoldsSame.eq_of_link {target : String} (h : (Entry.link target).HoldsSame e') :
    e' = .link target := by
  have hbare := h.bare_eq
  cases e' with
  | file content => contradiction
  | folder entries => contradiction
  | link target' => exact hbare.symm

theorem holdsSame_of_perm (hp : entries.Perm entries') (hd : (entries.map Prod.fst).Nodup) :
    (Entry.folder entries).HoldsSame (.folder entries') := by
  have hd' : (entries'.map Prod.fst).Nodup := (hp.map Prod.fst).nodup_iff.mp hd
  have hlookup : ∀ name, entries.lookup name = entries'.lookup name := by
    intro name
    refine Option.ext fun e => ?_
    constructor
    · intro h
      exact lookup_eq_some_of_mem hd' (hp.mem_iff.mp (mem_of_lookup_eq_some h))
    · intro h
      exact lookup_eq_some_of_mem hd (hp.mem_iff.mpr (mem_of_lookup_eq_some h))
  intro place
  cases place with
  | nil => rfl
  | cons name place =>
    change (((entries.lookup name).bind fun c => c.at? place).map bare) =
      ((entries'.lookup name).bind fun c => c.at? place).map bare
    rw [hlookup]

end Entry

/-! ## Paths in trees that hold the same -/

theorem Walk.of_holdsSame (h : Walk root here names n place) (hs : root.HoldsSame root') :
    Walk root' here names n place :=
  h.of_grows hs.grows

theorem follow_of_walk (h : Walk root here names n place) (hle : n ≤ links)
    (he : root.at? place = some e) : follow root true links here names = .ok (.entry place e) := by
  have hfollow : follow root true links here (names ++ []) =
      follow root true (links - n) place [] := follow_append_of_walk h hle
  rw [List.append_nil] at hfollow
  rw [hfollow, follow, he]

namespace Disk

variable {d d' : Disk} {p : Path}

theorem exists_find_of_holdsSame (hhere : d'.here = d.here) (hs : d.root.HoldsSame d'.root)
    (h : d.find p = .ok (.entry place e)) :
    ∃ e', d'.find p = .ok (.entry place e') ∧ e.HoldsSame e' := by
  obtain ⟨n, hle, hwalk, he⟩ := exists_walk_of_find h
  obtain ⟨e', he', hsame⟩ := hs.exists_at he
  have hstart : d'.startPlace p = d.startPlace p := by
    unfold startPlace
    rw [hhere]
  refine ⟨e', ?_, hsame⟩
  unfold find
  rw [if_neg (Nat.not_lt.mpr (fits_of_find h)), hstart]
  exact follow_of_walk (hwalk.of_holdsSame hs) hle he'

theorem find_of_entryAt (h : d.entryAt p = .ok e) : ∃ place, d.find p = .ok (.entry place e) := by
  unfold entryAt at h
  split at h
  · rename_i place e' hfind
    obtain rfl := Except.ok.inj h
    exact ⟨place, hfind⟩
  · contradiction
  · contradiction

theorem exists_entryAt_of_holdsSame (hhere : d'.here = d.here) (hs : d.root.HoldsSame d'.root)
    (h : d.entryAt p = .ok e) : ∃ e', d'.entryAt p = .ok e' ∧ e.HoldsSame e' := by
  obtain ⟨place, hfind⟩ := find_of_entryAt h
  obtain ⟨e', hfind', hsame⟩ := exists_find_of_holdsSame hhere hs hfind
  refine ⟨e', ?_, hsame⟩
  unfold entryAt
  rw [hfind']

theorem isFolder_eq_true_iff :
    d.isFolder p = true ↔ ∃ e, d.entryAt p = .ok e ∧ e.isFolder = true := by
  unfold isFolder
  cases d.entryAt p with
  | ok e => simp
  | error fault => simp

theorem isFolder_eq_of_holdsSame (hhere : d'.here = d.here) (hs : d.root.HoldsSame d'.root)
    (p : Path) : d'.isFolder p = d.isFolder p := by
  rw [Bool.eq_iff_iff, isFolder_eq_true_iff, isFolder_eq_true_iff]
  constructor
  · rintro ⟨e', he', hfolder⟩
    obtain ⟨e, he, hsame⟩ := exists_entryAt_of_holdsSame hhere.symm hs.symm he'
    exact ⟨e, he, hsame.isFolder_eq.symm.trans hfolder⟩
  · rintro ⟨e, he, hfolder⟩
    obtain ⟨e', he', hsame⟩ := exists_entryAt_of_holdsSame hhere hs he
    exact ⟨e', he', hsame.isFolder_eq.symm.trans hfolder⟩

theorem entryAt?_eq_some_iff :
    d.entryAt? p = .ok (some e) ↔ p.hasNul = false ∧ d.entryAt p = .ok e := by
  unfold entryAt?
  cases p.hasNul with
  | true => simp
  | false =>
    cases d.entryAt p with
    | ok e => simp
    | error fault => cases fault <;> simp

end Disk

end ToolchainChoice.Files
