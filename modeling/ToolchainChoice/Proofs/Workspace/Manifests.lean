import Mathlib
import ToolchainChoice.Proofs.Files.Listing
import ToolchainChoice.Proofs.Trace.Silence
import ToolchainChoice.Workspace.Scan

/-!
# The manifests of a workspace

The list of manifests is specified by what the tree below the root holds: which places are listed,
and for any two of them which comes first. Both are matters of names and of what a link leads to.
The order in which folders list their entries does not occur, and so has no influence.

The root has to be a folder; everything else in the tree may be whatever it is. The names of the root
and of what stands above it count by their length only: the walk cannot list a folder whose path is
longer than the system takes, and where folders are nested too deeply there is no list at all.
-/
namespace ToolchainChoice

open Files (Path Place Entry Disk)

namespace Files.Path

theorem below_nil (p : Path) : p.below [] = p := by
  unfold below
  rw [List.append_nil]

theorem below_child (p : Path) (name : String) (place : Place) :
    (p.child name).below place = p.below (name :: place) := by
  unfold below child
  rw [List.append_assoc, List.cons_append, List.nil_append]

end Files.Path

namespace Workspace

variable {d d' : Disk} {root root' start start' shown p : Path} {top top' e : Entry} {name : String}
variable {entries : List (String × Entry)} {folders place : Place} {places places' : List Place}
variable {levels : Nat}

/-! ## The specification -/

/-- The walk from `start`, whose entry is `top`, comes to the folder that `folders` lead to. None of
them is skipped, no link is followed on the way, and the system lists every folder before the last. -/
structure IsReached (start : Path) (top : Entry) (folders : Place) : Prop where
  entered : ∀ folder ∈ folders, folder ≠ "vendor" ∧ folder ≠ "testdata" ∧
    folder ≠ "node_modules" ∧ folder.toList.head? ≠ some '.'
  real : ∃ entries, top.at? folders = some (.folder entries)
  fits : ∀ before, before <+: folders → before ≠ folders →
    (start.below before).text.utf8ByteSize ≤ Files.pathLimit

/-- Below `start`, whose entry is `top`, there is a manifest of this name in the folder that `folders`
lead to, and the walk comes to this folder and has it listed. -/
structure IsManifest (d : Disk) (start : Path) (top : Entry) (folders : Place) (name : String) : Prop
    extends IsReached start top folders where
  named : name = "go.work" ∨ name = "go.mod"
  present : ∃ e, top.at? (folders ++ [name]) = some e ∧ e.isFolder = false ∧
    ∀ target, e = .link target → d.isFolder (start.below (folders ++ [name])) = false
  listed : (start.below folders).text.utf8ByteSize ≤ Files.pathLimit

/-- Which of two manifests is listed first, by the names that lead to them from the root. -/
inductive Before : Place → Place → Prop where
  /-- In one folder. -/
  | names {a b : String} (ha : a = "go.work") (hb : b = "go.mod") : Before [a] [b]
  /-- A folder comes before all that is below it. -/
  | own {name folder : String} {rest : Place} (h : rest ≠ []) : Before [name] (folder :: rest)
  /-- In two folders of one folder, by their names. -/
  | aside {a b : String} {p q : Place} (h : a < b) (hp : p ≠ []) (hq : q ≠ []) :
      Before (a :: p) (b :: q)
  | within {folder : String} {p q : Place} (h : Before p q) : Before (folder :: p) (folder :: q)

theorem Before.asymm {p q : Place} (h : Before p q) : ¬ Before q p := by
  induction h with
  | names ha hb =>
    intro h'
    cases h' with
    | names hb' ha' => exact absurd (hb.symm.trans hb') (by decide)
    | own h => exact h rfl
    | aside _ hp _ => exact hp rfl
    | within h'' => cases h''
  | own h =>
    intro h'
    cases h' with
    | names _ _ => exact h rfl
    | own h'' => exact h rfl
    | aside _ _ hq => exact hq rfl
    | within h'' => cases h''
  | aside h hp hq =>
    intro h'
    cases h' with
    | names _ _ => exact hp rfl
    | own h'' => exact hq rfl
    | aside h'' _ _ => exact String.lt_irrefl _ (String.lt_trans h h'')
    | within h'' => exact String.lt_irrefl _ h
  | within h ih =>
    intro h'
    cases h' with
    | names _ _ => cases h
    | own h'' => cases h
    | aside h'' _ _ => exact String.lt_irrefl _ h''
    | within h'' => exact ih h''

/-- There is one list of given places in this order. -/
theorem eq_of_pairwise_before (hp : places.Pairwise Before) (hp' : places'.Pairwise Before)
    (h : ∀ place, place ∈ places ↔ place ∈ places') : places = places' := by
  have hnodup : ∀ {ps : List Place}, ps.Pairwise Before → ps.Nodup := by
    intro ps hps
    refine hps.imp ?_
    rintro a b hab rfl
    exact hab.asymm hab
  refine List.Perm.eq_of_pairwise ?_ hp hp' ?_
  · intro a b _ _ hab hba
    exact absurd hba hab.asymm
  · exact (List.perm_ext_iff_of_nodup (hnodup hp) (hnodup hp')).mpr h

/-! ## The walk -/

theorem isEntered_iff {folder : String} :
    isEntered folder = true ↔ folder ≠ "vendor" ∧ folder ≠ "testdata" ∧
      folder ≠ "node_modules" ∧ folder.toList.head? ≠ some '.' := by
  unfold isEntered skippedFolders
  simp [and_assoc]

theorem isListed_iff : isListed shown = true ↔ shown.text.utf8ByteSize ≤ Files.pathLimit :=
  decide_eq_true_iff

theorem holdsManifest_iff :
    holdsManifest d shown entries name = true ↔
      ∃ e, entries.lookup name = some e ∧ e.isFolder = false ∧
        ∀ target, e = .link target → d.isFolder (shown.child name) = false := by
  unfold holdsManifest
  cases entries.lookup name with
  | none => simp
  | some e => cases e <;> simp [Entry.isFolder]

theorem isReached_nil (start : Path) (entries : List (String × Entry)) :
    IsReached start (.folder entries) [] where
  entered := List.forall_mem_nil _
  real := ⟨entries, rfl⟩
  fits _ hbefore hne := absurd (List.prefix_nil.mp hbefore) hne

theorem mem_ownManifests_iff (hlisted : isListed shown = true) :
    place ∈ ownManifests d shown entries ↔
      ∃ name, place = [name] ∧ IsManifest d shown (.folder entries) [] name := by
  unfold ownManifests manifestNames
  rw [List.mem_map]
  constructor
  · rintro ⟨name, hname, rfl⟩
    obtain ⟨hnamed, hholds⟩ := List.mem_filter.mp hname
    obtain ⟨e, he, hfolder, hlink⟩ := holdsManifest_iff.mp hholds
    refine ⟨name, rfl, isReached_nil shown entries, by simpa using hnamed, ⟨e, ?_, hfolder, hlink⟩, ?_⟩
    · exact Entry.at?_singleton.trans he
    · rw [Path.below_nil]
      exact isListed_iff.mp hlisted
  · rintro ⟨name, rfl, h⟩
    obtain ⟨e, he, hfolder, hlink⟩ := h.present
    refine ⟨name, List.mem_filter.mpr ⟨by simpa using h.named, ?_⟩, rfl⟩
    exact holdsManifest_iff.mpr ⟨e, Entry.at?_singleton.symm.trans he, hfolder, hlink⟩

theorem manifestsBelow_eq (d : Disk) (shown : Path) (entries : List (String × Entry)) :
    manifestsBelow d shown entries =
      (entries.filter fun x => x.2.isFolder && isEntered x.1).map fun x =>
        (x.1, manifestsIn d (shown.child x.1) x.2) := by
  induction entries with
  | nil => rfl
  | cons x entries ih =>
    obtain ⟨name, e⟩ := x
    rw [manifestsBelow, List.filter_cons]
    dsimp only
    rw [ih]
    split <;> rfl

/-- What is listed below a folder is listed in one of the folders in it. -/
theorem mem_flatMap_manifestsBelow_iff :
    place ∈ ((manifestsBelow d shown entries).mergeSort fun a b => a.1 ≤ b.1).flatMap
        (fun found => found.2.map (found.1 :: ·)) ↔
      ∃ folder e rest, (folder, e) ∈ entries ∧ e.isFolder = true ∧ isEntered folder = true ∧
        rest ∈ manifestsIn d (shown.child folder) e ∧ place = folder :: rest := by
  rw [List.mem_flatMap]
  simp only [List.mem_mergeSort, manifestsBelow_eq, List.mem_map, List.mem_filter,
    Bool.and_eq_true]
  constructor
  · rintro ⟨_, ⟨⟨folder, e⟩, ⟨hmem, hfolder, hentered⟩, rfl⟩, rest, hrest, rfl⟩
    exact ⟨folder, e, rest, hmem, hfolder, hentered, hrest, rfl⟩
  · rintro ⟨folder, e, rest, hmem, hfolder, hentered, hrest, rfl⟩
    exact ⟨_, ⟨⟨folder, e⟩, ⟨hmem, hfolder, hentered⟩, rfl⟩, rest, hrest, rfl⟩

theorem IsReached.isFolder (h : IsReached start top folders) : top.isFolder = true := by
  obtain ⟨entries, hreal⟩ := h.real
  cases top with
  | folder entries => rfl
  | file content => cases folders <;> cases hreal
  | link target => cases folders <;> cases hreal

theorem at?_folder_cons {folder : String} (he : entries.lookup folder = some e) (place : Place) :
    (Entry.folder entries).at? (folder :: place) = e.at? place := by
  change (entries.lookup folder).bind (·.at? place) = e.at? place
  rw [he]
  rfl

/-- From a folder that is listed the walk goes on to what it reaches from a folder in it. -/
theorem IsReached.cons {folder : String} (hlisted : isListed shown = true)
    (he : entries.lookup folder = some e) (hentered : isEntered folder = true)
    (h : IsReached (shown.child folder) e folders) :
    IsReached shown (.folder entries) (folder :: folders) where
  entered := List.forall_mem_cons.mpr ⟨isEntered_iff.mp hentered, h.entered⟩
  real := by
    rw [at?_folder_cons he]
    exact h.real
  fits before hbefore hne := by
    cases before with
    | nil =>
      rw [Path.below_nil]
      exact isListed_iff.mp hlisted
    | cons first before =>
      obtain ⟨rfl, hrest⟩ := List.cons_prefix_cons.mp hbefore
      rw [← Path.below_child]
      exact h.fits before hrest fun heq => hne (congrArg (first :: ·) heq)

/-- What is reached below a folder is reached from a folder in it. -/
theorem IsReached.exists_of_cons {folder : String}
    (h : IsReached shown (.folder entries) (folder :: folders)) :
    isListed shown = true ∧ ∃ e, entries.lookup folder = some e ∧ e.isFolder = true ∧
      isEntered folder = true ∧ IsReached (shown.child folder) e folders := by
  have hlisted := h.fits [] List.nil_prefix (List.cons_ne_nil folder folders).symm
  rw [Path.below_nil] at hlisted
  obtain ⟨inner, hinner⟩ := h.real
  obtain ⟨e, he, hreal⟩ := Option.bind_eq_some_iff.mp hinner
  have hentered := List.forall_mem_cons.mp h.entered
  have hreached : IsReached (shown.child folder) e folders := by
    refine ⟨hentered.2, ⟨inner, hreal⟩, fun before hbefore hne => ?_⟩
    rw [Path.below_child]
    exact h.fits (folder :: before) (List.cons_prefix_cons.mpr ⟨rfl, hbefore⟩)
      fun heq => hne (List.cons.inj heq).2
  exact ⟨isListed_iff.mpr hlisted, e, he, hreached.isFolder, isEntered_iff.mpr hentered.1, hreached⟩

/-- What is a manifest in a folder is one in the folder that holds it, and the other way round. -/
theorem isManifest_cons_iff {folder : String} :
    IsManifest d shown (.folder entries) (folder :: folders) name ↔
      isListed shown = true ∧ ∃ e, entries.lookup folder = some e ∧ e.isFolder = true ∧
        isEntered folder = true ∧ IsManifest d (shown.child folder) e folders name := by
  constructor
  · intro h
    obtain ⟨hlisted, e, he, hfolder, hentered, hreached⟩ := h.toIsReached.exists_of_cons
    refine ⟨hlisted, e, he, hfolder, hentered, hreached, h.named, ?_, ?_⟩
    · obtain ⟨f, hf, hnot, hlink⟩ := h.present
      rw [List.cons_append, at?_folder_cons he] at hf
      refine ⟨f, hf, hnot, fun target htarget => ?_⟩
      rw [Path.below_child]
      exact hlink target htarget
    · rw [Path.below_child]
      exact h.listed
  · rintro ⟨hlisted, e, he, -, hentered, h⟩
    refine ⟨h.toIsReached.cons hlisted he hentered, h.named, ?_, ?_⟩
    · obtain ⟨f, hf, hnot, hlink⟩ := h.present
      refine ⟨f, (at?_folder_cons he _).trans hf, hnot, fun target htarget => ?_⟩
      rw [List.cons_append, ← Path.below_child]
      exact hlink target htarget
    · rw [← Path.below_child]
      exact h.listed

/-- The walk lists the manifests and nothing else. The induction is on the tree. -/
theorem mem_manifestsIn_iff (hd : e.HasDistinctNames) :
    place ∈ manifestsIn d shown e ↔
      ∃ folders name, place = folders ++ [name] ∧ IsManifest d shown e folders name := by
  induction e using Entry.forall_of_folder generalizing shown place with
  | hfile content =>
    constructor
    · intro hplace
      cases hplace
    · rintro ⟨folders, name, -, h⟩
      cases h.isFolder
  | hlink target =>
    constructor
    · intro hplace
      cases hplace
    · rintro ⟨folders, name, -, h⟩
      cases h.isFolder
  | hfolder entries ih =>
    obtain ⟨hdistinct, hsub⟩ := Entry.hasDistinctNames_folder_iff.mp hd
    rw [manifestsIn]
    split
    · rename_i hlisted
      rw [List.mem_append, mem_ownManifests_iff hlisted, mem_flatMap_manifestsBelow_iff]
      constructor
      · rintro (⟨name, rfl, h⟩ | ⟨folder, e, rest, hmem, hfolder, hentered, hrest, rfl⟩)
        · exact ⟨[], name, rfl, h⟩
        · have he := Entry.lookup_eq_some_of_mem hdistinct hmem
          obtain ⟨folders, name, rfl, h⟩ := (ih (folder, e) hmem (hsub _ hmem)).mp hrest
          exact ⟨folder :: folders, name, rfl,
            isManifest_cons_iff.mpr ⟨hlisted, e, he, hfolder, hentered, h⟩⟩
      · rintro ⟨folders, name, rfl, h⟩
        cases folders with
        | nil => exact .inl ⟨name, rfl, h⟩
        | cons folder folders =>
          obtain ⟨-, e, he, hfolder, hentered, h⟩ := isManifest_cons_iff.mp h
          have hmem := Entry.mem_of_lookup_eq_some he
          refine .inr ⟨folder, e, folders ++ [name], hmem, hfolder, hentered, ?_, rfl⟩
          exact (ih _ hmem (hsub _ hmem)).mpr ⟨folders, name, rfl, h⟩
    · rename_i hlisted
      refine iff_of_false (List.not_mem_nil) ?_
      rintro ⟨folders, name, rfl, h⟩
      cases folders with
      | nil =>
        have hsize := h.listed
        rw [Path.below_nil] at hsize
        exact hlisted (isListed_iff.mpr hsize)
      | cons folder folders => exact hlisted (isManifest_cons_iff.mp h).1

/-! ## The depth -/

theorem anyGoesDeeper_iff :
    anyGoesDeeper shown levels entries = true ↔
      ∃ folder e, (folder, e) ∈ entries ∧ e.isFolder = true ∧ isEntered folder = true ∧
        (levels = 0 ∨ goesDeeper (shown.child folder) (levels - 1) e = true) := by
  induction entries with
  | nil => simp [anyGoesDeeper]
  | cons x entries ih =>
    obtain ⟨name, e⟩ := x
    rw [anyGoesDeeper, Bool.or_eq_true, ih]
    simp only [Bool.and_eq_true, Bool.or_eq_true, beq_iff_eq]
    constructor
    · rintro (⟨⟨hfolder, hentered⟩, hdeeper⟩ | ⟨folder, e, hmem, h⟩)
      · exact ⟨name, e, List.mem_cons_self, hfolder, hentered, hdeeper⟩
      · exact ⟨folder, e, List.mem_cons_of_mem _ hmem, h⟩
    · rintro ⟨folder, e', hmem, hfolder, hentered, hdeeper⟩
      rcases List.mem_cons.mp hmem with heq | hmem
      · obtain ⟨rfl, rfl⟩ := Prod.mk.inj heq
        exact .inl ⟨⟨hfolder, hentered⟩, hdeeper⟩
      · exact .inr ⟨folder, e', hmem, hfolder, hentered, hdeeper⟩

/-- The walk goes deeper than some levels if it reaches a folder that is nested more deeply. The
induction is on the tree; the levels go down with it. -/
theorem goesDeeper_iff (hd : e.HasDistinctNames) :
    goesDeeper shown levels e = true ↔ ∃ folders, IsReached shown e folders ∧ levels < folders.length := by
  induction e using Entry.forall_of_folder generalizing shown levels with
  | hfile content =>
    refine iff_of_false Bool.false_ne_true ?_
    rintro ⟨folders, h, -⟩
    cases h.isFolder
  | hlink target =>
    refine iff_of_false Bool.false_ne_true ?_
    rintro ⟨folders, h, -⟩
    cases h.isFolder
  | hfolder entries ih =>
    obtain ⟨hdistinct, hsub⟩ := Entry.hasDistinctNames_folder_iff.mp hd
    rw [goesDeeper, Bool.and_eq_true, anyGoesDeeper_iff]
    constructor
    · rintro ⟨hlisted, folder, e, hmem, hfolder, hentered, hdeeper⟩
      have he := Entry.lookup_eq_some_of_mem hdistinct hmem
      rcases hdeeper with rfl | hdeeper
      · obtain ⟨inner, rfl⟩ : ∃ inner, e = .folder inner := by
          cases e with
          | folder inner => exact ⟨inner, rfl⟩
          | file content | link target => contradiction
        exact ⟨[folder], (isReached_nil _ inner).cons hlisted he hentered, Nat.one_pos⟩
      · obtain ⟨folders, hreached, hlt⟩ := (ih (folder, e) hmem (hsub _ hmem)).mp hdeeper
        refine ⟨folder :: folders, hreached.cons hlisted he hentered, ?_⟩
        rw [List.length_cons]
        omega
    · rintro ⟨folders, hreached, hlt⟩
      cases folders with
      | nil => exact absurd hlt (Nat.not_lt_zero levels)
      | cons folder folders =>
        obtain ⟨hlisted, e, he, hfolder, hentered, hreached⟩ := hreached.exists_of_cons
        have hmem := Entry.mem_of_lookup_eq_some he
        refine ⟨hlisted, folder, e, hmem, hfolder, hentered, ?_⟩
        rw [List.length_cons] at hlt
        by_cases hzero : levels = 0
        · exact .inl hzero
        · exact .inr ((ih _ hmem (hsub _ hmem)).mpr ⟨folders, hreached, by omega⟩)

/-! ## The order -/

theorem pairwise_ownManifests : (ownManifests d shown entries).Pairwise Before := by
  unfold ownManifests
  rw [List.pairwise_map]
  refine List.Pairwise.sublist (List.filter_sublist ..) ?_
  have hnames : Before ["go.work"] ["go.mod"] := .names rfl rfl
  simpa [manifestNames] using hnames

/-- The folders that are entered are gone through in the order of their names. -/
theorem pairwise_manifestsBelow (hd : (entries.map Prod.fst).Nodup) :
    ((manifestsBelow d shown entries).mergeSort fun a b => a.1 ≤ b.1).Pairwise
      fun a b => a.1 < b.1 := by
  have hsorted : ((manifestsBelow d shown entries).mergeSort fun a b => a.1 ≤ b.1).Pairwise
      fun a b => decide (a.1 ≤ b.1) = true := List.pairwise_mergeSort
    (fun a b c hab hbc => by simpa using String.le_trans (by simpa using hab) (by simpa using hbc))
    (fun a b => by simpa using String.le_total a.1 b.1) (manifestsBelow d shown entries)
  have hnames : ((manifestsBelow d shown entries).map Prod.fst).Nodup := by
    rw [manifestsBelow_eq, List.map_map]
    exact (List.filter_sublist.map Prod.fst).nodup hd
  have hdistinct := ((List.mergeSort_perm (manifestsBelow d shown entries)
    fun a b => a.1 ≤ b.1).map Prod.fst).nodup_iff.mpr hnames
  refine (hsorted.and (List.pairwise_map.mp hdistinct)).imp ?_
  rintro a b ⟨hle, hne⟩
  have hle : a.1 ≤ b.1 := by simpa using hle
  exact String.not_le.mp fun hge => hne (String.le_antisymm hle hge)

theorem ne_nil_of_mem_manifestsIn (hd : e.HasDistinctNames) (h : place ∈ manifestsIn d shown e) :
    place ≠ [] := by
  obtain ⟨folders, name, rfl, -⟩ := (mem_manifestsIn_iff hd).mp h
  simp

/-- The places that the walk lists in a folder have names in them. -/
theorem ne_nil_of_mem_manifestsBelow {x : String × List Place}
    (hd : ∀ y ∈ entries, y.2.HasDistinctNames) (hx : x ∈ manifestsBelow d shown entries)
    (hplace : place ∈ x.2) : place ≠ [] := by
  rw [manifestsBelow_eq] at hx
  obtain ⟨⟨folder, e⟩, hmem, rfl⟩ := List.mem_map.mp hx
  exact ne_nil_of_mem_manifestsIn (hd _ (List.mem_filter.mp hmem).1) hplace

/-- The walk lists the manifests in pre-order. -/
theorem pairwise_manifestsIn (hd : e.HasDistinctNames) : (manifestsIn d shown e).Pairwise Before := by
  induction e using Entry.forall_of_folder generalizing shown with
  | hfile content => exact .nil
  | hlink target => exact .nil
  | hfolder entries ih =>
    obtain ⟨hdistinct, hsub⟩ := Entry.hasDistinctNames_folder_iff.mp hd
    rw [manifestsIn]
    split
    · rw [List.pairwise_append]
      refine ⟨pairwise_ownManifests, List.pairwise_flatMap.mpr ⟨?_, ?_⟩, ?_⟩
      · -- within one folder
        intro x hx
        rw [List.mem_mergeSort, manifestsBelow_eq, List.mem_map] at hx
        obtain ⟨⟨folder, e⟩, hmem, rfl⟩ := hx
        have hmem := (List.mem_filter.mp hmem).1
        exact List.pairwise_map.mpr ((ih (folder, e) hmem (hsub _ hmem)).imp .within)
      · -- in two of them
        refine (pairwise_manifestsBelow hdistinct).imp_of_mem ?_
        intro x y hx hy hlt p hp q hq
        obtain ⟨a, ha, rfl⟩ := List.mem_map.mp hp
        obtain ⟨b, hb, rfl⟩ := List.mem_map.mp hq
        exact .aside hlt (ne_nil_of_mem_manifestsBelow hsub (List.mem_mergeSort.mp hx) ha)
          (ne_nil_of_mem_manifestsBelow hsub (List.mem_mergeSort.mp hy) hb)
      · -- here and below
        intro p hp q hq
        obtain ⟨name, -, rfl⟩ := List.mem_map.mp hp
        obtain ⟨x, hx, hq⟩ := List.mem_flatMap.mp hq
        obtain ⟨b, hb, rfl⟩ := List.mem_map.mp hq
        exact .own (ne_nil_of_mem_manifestsBelow hsub (List.mem_mergeSort.mp hx) hb)
    · exact .nil

/-! ## The list -/

/-- The places are those of the manifests, each once and in their order. -/
structure Lists (d : Disk) (start : Path) (top : Entry) (places : List Place) : Prop where
  mem_iff : ∀ place, place ∈ places ↔
    ∃ folders name, place = folders ++ [name] ∧ IsManifest d start top folders name
  pairwise : places.Pairwise Before

theorem Lists.nodup (h : Lists d start top places) : places.Nodup := by
  refine h.pairwise.imp ?_
  rintro a b hab rfl
  exact hab.asymm hab

theorem lists_manifestsIn (d : Disk) (start : Path) (hd : top.HasDistinctNames) :
    Lists d start top (manifestsIn d start top) :=
  ⟨fun _ => mem_manifestsIn_iff hd, pairwise_manifestsIn hd⟩

/-- What a walk reaches does not depend on where the folders list it, nor on what the root is called;
only the lengths of the paths may make a difference. -/
theorem IsReached.of_holdsSame (h : IsReached start top folders) (hs : top.HoldsSame top')
    (hfits : ∀ place, (start.below place).text.utf8ByteSize ≤ Files.pathLimit →
      (start'.below place).text.utf8ByteSize ≤ Files.pathLimit) :
    IsReached start' top' folders where
  entered := h.entered
  real := h.real.elim fun _ => hs.exists_folder
  fits before hbefore hne := hfits before (h.fits before hbefore hne)

/-- Where a manifest is depends besides on where links lead. -/
theorem IsManifest.of_holdsSame (h : IsManifest d start top folders name) (hs : top.HoldsSame top')
    (hfits : ∀ place, (start.below place).text.utf8ByteSize ≤ Files.pathLimit →
      (start'.below place).text.utf8ByteSize ≤ Files.pathLimit)
    (hf : ∀ place, d'.isFolder (start'.below place) = d.isFolder (start.below place)) :
    IsManifest d' start' top' folders name := by
  refine ⟨h.toIsReached.of_holdsSame hs hfits, h.named, ?_, hfits folders h.listed⟩
  obtain ⟨e, he, hnot, hlink⟩ := h.present
  obtain ⟨e', he', hsame⟩ := hs.exists_at he
  refine ⟨e', he', ?_, ?_⟩
  · rw [← hsame.isFolder_eq]
    exact hnot
  · rintro target rfl
    rw [hf]
    exact hlink target hsame.symm.eq_of_link

theorem Lists.unique (h : Lists d start top places) (h' : Lists d' start' top' places')
    (hs : top.HoldsSame top')
    (hfits : ∀ place, (start'.below place).text.utf8ByteSize ≤ Files.pathLimit ↔
      (start.below place).text.utf8ByteSize ≤ Files.pathLimit)
    (hf : ∀ place, d'.isFolder (start'.below place) = d.isFolder (start.below place)) :
    places = places' := by
  refine eq_of_pairwise_before h.pairwise h'.pairwise fun place => ?_
  rw [h.mem_iff, h'.mem_iff]
  constructor
  · rintro ⟨folders, name, rfl, hm⟩
    exact ⟨folders, name, rfl, hm.of_holdsSame hs (fun place => (hfits place).mpr) hf⟩
  · rintro ⟨folders, name, rfl, hm⟩
    exact ⟨folders, name, rfl, hm.of_holdsSame hs.symm (fun place => (hfits place).mp)
      fun place => (hf place).symm⟩

/-- Folders are nested more deeply somewhere than the walk can go. -/
def IsTooDeep (start : Path) (top : Entry) : Prop :=
  ∃ folders, IsReached start top folders ∧ walkDepth < folders.length

theorem manifests_result (hroot : d.entryAt? root = .ok (some (.folder entries)))
    (hd : (Entry.folder entries).HasDistinctNames) (hdeep : ¬IsTooDeep (walkStart root) (.folder entries)) :
    (manifests d root).result =
      .ok ((manifestsIn d (walkStart root) (.folder entries)).map root.below) := by
  unfold manifests
  rw [hroot]
  dsimp only
  rw [if_neg fun h => hdeep ((goesDeeper_iff hd).mp h)]
  rfl

theorem manifests_result_of_isTooDeep (hroot : d.entryAt? root = .ok (some (.folder entries)))
    (hd : (Entry.folder entries).HasDistinctNames) (hdeep : IsTooDeep (walkStart root) (.folder entries)) :
    (manifests d root).result = .error .tooDeep := by
  unfold manifests
  rw [hroot]
  dsimp only
  rw [if_pos ((goesDeeper_iff hd).mpr hdeep)]
  rfl

theorem hasDistinctNames_of_entryAt? (hd : d.root.HasDistinctNames)
    (h : d.entryAt? root = .ok (some top)) : top.HasDistinctNames := by
  obtain ⟨-, hentry⟩ := Disk.entryAt?_eq_some_iff.mp h
  obtain ⟨place, hfind⟩ := Disk.find_of_entryAt hentry
  obtain ⟨-, -, -, hat⟩ := Disk.exists_walk_of_find hfind
  exact hd.at hat

/-- **Manifests.** If the root is a folder the manifests are listed, each of them once, in pre-order,
and nothing else is; unless folders are nested too deeply, which there is no list for. The list is the
same for every disk that holds the same, in whatever order its folders list their entries. Under another
path the same folder has its manifests at the same places, as far as links lead to folders from both and
the same paths are short enough. -/
theorem manifests_listed_once_in_order (hroot : d.entryAt? root = .ok (some (.folder entries)))
    (hd : d.root.HasDistinctNames) :
    ((∃ folders, IsReached (walkStart root) (.folder entries) folders ∧ walkDepth < folders.length) →
      (manifests d root).result = .error .tooDeep) ∧
    ((∀ folders, IsReached (walkStart root) (.folder entries) folders → folders.length ≤ walkDepth) →
      ∃ places : List Place, (manifests d root).result = .ok (places.map root.below) ∧
        (∀ place, place ∈ places ↔ ∃ folders name, place = folders ++ [name] ∧
          IsManifest d (walkStart root) (.folder entries) folders name) ∧
        places.Nodup ∧ places.Pairwise Before ∧
        (∀ d', d'.here = d.here → d'.root.HasDistinctNames → d.root.HoldsSame d'.root →
          (manifests d' root).result = .ok (places.map root.below)) ∧
        ∀ root', d.entryAt? root' = .ok (some (.folder entries)) →
          (∀ place, ((walkStart root').below place).text.utf8ByteSize ≤ Files.pathLimit ↔
            ((walkStart root).below place).text.utf8ByteSize ≤ Files.pathLimit) →
          (∀ place, d.isFolder ((walkStart root').below place) =
            d.isFolder ((walkStart root).below place)) →
          (manifests d root').result = .ok (places.map root'.below)) := by
  have htop := hasDistinctNames_of_entryAt? hd hroot
  refine ⟨manifests_result_of_isTooDeep hroot htop, fun hdepth => ?_⟩
  have hdeep : ¬IsTooDeep (walkStart root) (.folder entries) := fun ⟨folders, hreached, hlt⟩ =>
    absurd (hdepth folders hreached) (Nat.not_le.mpr hlt)
  have hlists := lists_manifestsIn d (walkStart root) htop
  refine ⟨_, manifests_result hroot htop hdeep, hlists.mem_iff, hlists.nodup, hlists.pairwise, ?_, ?_⟩
  · intro d' hhere hd' hs
    obtain ⟨hnul, hentry⟩ := Disk.entryAt?_eq_some_iff.mp hroot
    obtain ⟨e', hentry', hsame⟩ := Disk.exists_entryAt_of_holdsSame hhere hs hentry
    have hself : (Entry.folder entries).at? [] = some (.folder entries) := rfl
    obtain ⟨entries', he'⟩ := hsame.exists_folder hself
    obtain rfl : e' = .folder entries' := Option.some.inj he'
    have hroot' := Disk.entryAt?_eq_some_iff.mpr ⟨hnul, hentry'⟩
    have htop' := hasDistinctNames_of_entryAt? hd' hroot'
    have hdeep' : ¬IsTooDeep (walkStart root) (.folder entries') := fun ⟨folders, hreached, hlt⟩ =>
      hdeep ⟨folders, hreached.of_holdsSame hsame.symm fun _ => id, hlt⟩
    rw [manifests_result hroot' htop' hdeep', hlists.unique (lists_manifestsIn d' _ htop') hsame
      (fun _ => Iff.rfl) fun place => Disk.isFolder_eq_of_holdsSame hhere hs _]
  · intro root' hroot' hfits hf
    have hdeep' : ¬IsTooDeep (walkStart root') (.folder entries) := fun ⟨folders, hreached, hlt⟩ =>
      hdeep ⟨folders, hreached.of_holdsSame (.refl _) fun place => (hfits place).mp, hlt⟩
    rw [manifests_result hroot' htop hdeep',
      hlists.unique (lists_manifestsIn d _ htop) (.refl _) hfits hf]

/-- The entries of a workspace with a module of its own, one below it whose `go.work` leads nowhere,
and folders that hold no modules of the workspace: one with a link to a folder, a hidden one, one
that is skipped by name and one that is a link itself. -/
def mixedEntries : List (String × Entry) := [
  ("sub", .folder [("go.mod", .file .empty), ("go.work", .link "nowhere")]),
  ("go.mod", .file .empty),
  ("loop", .folder [("go.mod", .link "..")]),
  (".git", .folder [("go.mod", .file .empty)]),
  ("vendor", .folder [("go.mod", .file .empty)]),
  ("other", .link "sub")]

def mixedDisk : Disk := ⟨.folder mixedEntries, []⟩

theorem goesDeeper_mixedDisk :
    goesDeeper (walkStart (.ofRoot [])) walkDepth (.folder mixedEntries) = false := by
  decide +kernel

theorem manifests_listed_once_in_mixedDisk :
    mixedDisk.entryAt? (.ofRoot []) = .ok (some (.folder mixedEntries)) ∧
      mixedDisk.root.HasDistinctNames ∧
      (∀ folders, IsReached (walkStart (.ofRoot [])) (.folder mixedEntries) folders →
        folders.length ≤ walkDepth) ∧
      (manifests mixedDisk (.ofRoot [])).result =
        .ok ([["go.mod"], ["sub", "go.work"], ["sub", "go.mod"]].map (Path.ofRoot []).below) ∧
      (manifests ⟨.folder mixedEntries.reverse, []⟩ (.ofRoot [])).result =
        (manifests mixedDisk (.ofRoot [])).result := by
  have hroot : mixedDisk.entryAt? (.ofRoot []) = .ok (some (.folder mixedEntries)) := by cbv
  have hd : mixedDisk.root.HasDistinctNames := by simp [mixedDisk, mixedEntries]
  have hdepth : ∀ folders, IsReached (walkStart (.ofRoot [])) (.folder mixedEntries) folders →
      folders.length ≤ walkDepth := by
    intro folders hreached
    by_contra hlt
    have hdeeper := (goesDeeper_iff hd).mpr ⟨folders, hreached, Nat.not_le.mp hlt⟩
    exact absurd (hdeeper.symm.trans goesDeeper_mixedDisk) (by decide)
  have hperm : mixedEntries.Perm mixedEntries.reverse := (List.reverse_perm _).symm
  have hsame := Entry.holdsSame_of_perm hperm (by decide)
  have hd' : (Entry.folder mixedEntries.reverse).HasDistinctNames := by simp [mixedEntries]
  obtain ⟨places, hresult, -, -, -, hrelisted, -⟩ :=
    (manifests_listed_once_in_order hroot hd).2 hdepth
  refine ⟨hroot, hd, hdepth, by cbv, ?_⟩
  rw [hresult]
  exact hrelisted ⟨.folder mixedEntries.reverse, []⟩ rfl hd' hsame

/-! ## A module that is nested too deeply -/

/-- A name of 250 characters. -/
def longName : String := String.ofList (List.replicate 250 'a')

/-- A module within so many folders of this name. -/
def nested : Nat → Entry
  | 0 => .folder [("go.mod", .file .empty)]
  | n + 1 => .folder [(longName, nested n)]

theorem exists_nested (n : Nat) : ∃ entries, nested n = .folder entries := by
  cases n with
  | zero => exact ⟨_, rfl⟩
  | succ n => exact ⟨_, rfl⟩

theorem at?_nested (n k : Nat) (rest : Place) :
    (nested (n + k)).at? (List.replicate n longName ++ rest) = (nested k).at? rest := by
  induction n with
  | zero => rw [Nat.zero_add, List.replicate_zero, List.nil_append]
  | succ n ih =>
    rw [Nat.succ_add, List.replicate_succ, List.cons_append, nested,
      at?_folder_cons List.lookup_cons_self, ih]

theorem goesDeeper_nested (shown : Path) {n : Nat} (h : n ≤ levels) :
    goesDeeper shown levels (nested n) = false := by
  induction n generalizing shown levels with
  | zero => simp [nested, goesDeeper, anyGoesDeeper, Entry.isFolder]
  | succ n ih =>
    have hfewer : goesDeeper (shown.child longName) (levels - 1) (nested n) = false := ih _ (by omega)
    have hlevels : levels ≠ 0 := by omega
    simp [nested, goesDeeper, anyGoesDeeper, hfewer, hlevels]

/-- Below a path that is too long nothing is listed. -/
theorem manifestsIn_nested {n k : Nat} (hle : k ≤ n)
    (h : Files.pathLimit < (shown.below (List.replicate k longName)).text.utf8ByteSize) :
    manifestsIn d shown (nested n) = [] := by
  induction n generalizing shown k with
  | zero =>
    obtain rfl := Nat.le_zero.mp hle
    rw [List.replicate_zero, Path.below_nil] at h
    rw [nested, manifestsIn, if_neg fun hlisted => absurd (isListed_iff.mp hlisted) (Nat.not_le.mpr h)]
  | succ n ih =>
    cases k with
    | zero =>
      rw [List.replicate_zero, Path.below_nil] at h
      rw [nested, manifestsIn, if_neg fun hlisted => absurd (isListed_iff.mp hlisted) (Nat.not_le.mpr h)]
    | succ k =>
      rw [List.replicate_succ, ← Path.below_child] at h
      have hown : ownManifests d shown [(longName, nested n)] = [] := by
        have hwork : ("go.work" == longName) = false := by decide +kernel
        have hmod : ("go.mod" == longName) = false := by decide +kernel
        simp [ownManifests, manifestNames, holdsManifest, List.lookup_cons, hwork, hmod]
      have hbelow : ∀ found ∈ manifestsBelow d shown [(longName, nested n)], found.2 = [] := by
        intro found hfound
        rw [manifestsBelow_eq, List.mem_map] at hfound
        obtain ⟨x, hx, rfl⟩ := hfound
        obtain rfl := List.mem_singleton.mp (List.mem_filter.mp hx).1
        exact ih (Nat.le_of_succ_le_succ hle) h
      rw [nested, manifestsIn, hown, List.nil_append]
      split
      · refine List.flatMap_eq_nil_iff.mpr fun found hfound => ?_
        rw [hbelow found (List.mem_mergeSort.mp hfound), List.map_nil]
      · rfl

theorem mul_size_le_size_intercalate (n : Nat) (name : String) :
    n * name.utf8ByteSize ≤ ("/".intercalate (List.replicate n name)).utf8ByteSize := by
  induction n with
  | zero => simp
  | succ n ih =>
    cases n with
    | zero => simp
    | succ n =>
      rw [List.replicate_succ, List.replicate_succ, String.intercalate_cons_cons,
        String.utf8ByteSize_append, String.utf8ByteSize_append, ← List.replicate_succ, Nat.succ_mul]
      omega

/-- Twenty folders in one another, of which the seventeenth has a path that the system does not take. -/
def nestedDisk : Disk := ⟨nested 20, []⟩

/-- The module in the last of them is an entry of a real folder, and is not listed. -/
theorem manifests_misses_nested_module :
    let folders := List.replicate 20 longName
    (∀ folder ∈ folders, folder ≠ "vendor" ∧ folder ≠ "testdata" ∧ folder ≠ "node_modules" ∧
        folder.toList.head? ≠ some '.') ∧
      (∀ before, before <+: folders →
        ∃ entries, nestedDisk.root.at? before = some (.folder entries)) ∧
      nestedDisk.root.at? (folders ++ ["go.mod"]) = some (.file .empty) ∧
      (manifests nestedDisk (.ofRoot [])).result = .ok [] := by
  intro folders
  have hname : longName.utf8ByteSize = 250 := by decide +kernel
  have hentered : longName ≠ "vendor" ∧ longName ≠ "testdata" ∧ longName ≠ "node_modules" ∧
      longName.toList.head? ≠ some '.' := by decide +kernel
  have hroot : nestedDisk.entryAt? (.ofRoot []) = .ok (some (nested 20)) := by
    have hfollow : Files.follow nestedDisk.root true Files.linkLimit [] [] =
        .ok (.entry [] (nested 20)) := by
      rw [Files.follow]
      rfl
    exact Disk.entryAt?_of_follow rfl (by decide) hfollow
  have hlong : Files.pathLimit <
      ((walkStart (.ofRoot [])).below (List.replicate 17 longName)).text.utf8ByteSize := by
    have hsize := mul_size_le_size_intercalate 17 longName
    have htext : ((walkStart (.ofRoot [])).below (List.replicate 17 longName)).text =
        "/" ++ "/".intercalate (List.replicate 17 longName) := rfl
    have hlimit : Files.pathLimit = 4095 := rfl
    rw [htext, String.utf8ByteSize_append]
    omega
  refine ⟨?_, ?_, ?_, ?_⟩
  · intro folder hfolder
    rw [List.eq_of_mem_replicate hfolder]
    exact hentered
  · rintro before ⟨after, hafter⟩
    obtain ⟨hlength, hbefore, -⟩ := List.append_eq_replicate_iff.mp hafter
    have hat := at?_nested before.length (20 - before.length) []
    rw [List.append_nil, ← hbefore, Nat.add_sub_cancel' (by omega)] at hat
    obtain ⟨entries, hentries⟩ := exists_nested (20 - before.length)
    exact ⟨entries, hat.trans (congrArg some hentries)⟩
  · exact at?_nested 20 0 ["go.mod"]
  · obtain ⟨entries, hentries⟩ := exists_nested 20
    have hshallow : goesDeeper (walkStart (.ofRoot [])) walkDepth (nested 20) = false :=
      goesDeeper_nested _ (by decide)
    have hnone : manifestsIn nestedDisk (walkStart (.ofRoot [])) (nested 20) = [] :=
      manifestsIn_nested (by decide) hlong
    rw [hentries] at hroot hshallow hnone
    unfold manifests
    rw [hroot]
    dsimp only
    rw [hshallow, hnone]
    rfl

end Workspace

end ToolchainChoice
