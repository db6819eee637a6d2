import ToolchainChoice.Proofs.Files.Walk

/-!
# Real paths

Where the system can follow a path, the real path is the place that it leads to. Resolving keeps
account of the links that it is within, and gives up where it meets one of them again or is within
more links than there are; on a path that can be followed neither comes to pass, since a link that
were met within itself would have no end. Nothing is said of paths that lead nowhere.
-/
namespace ToolchainChoice.Files

variable {root e : Entry} {here mid place : Place} {name target : String} {names : List String}
variable {entries : List (String × Entry)} {pending : List Place} {depth m n : Nat}

/-! ## The places of the links -/

mutual

/-- The places of all links in a tree. -/
def Entry.linkPlaces : Entry → List Place
  | .file _ => []
  | .link _ => [[]]
  | .folder entries => linkPlacesAll entries

def Entry.linkPlacesAll : List (String × Entry) → List Place
  | [] => []
  | (name, e) :: entries => (linkPlaces e).map (name :: ·) ++ linkPlacesAll entries

end

mutual

theorem Entry.length_linkPlaces (e : Entry) : e.linkPlaces.length = e.linkCount := by
  cases e with
  | file content => rfl
  | link target => rfl
  | folder entries =>
    rw [linkPlaces, linkCount]
    exact length_linkPlacesAll entries

theorem Entry.length_linkPlacesAll (entries : List (String × Entry)) :
    (linkPlacesAll entries).length = linkCountAll entries := by
  match entries with
  | [] => rfl
  | (name, e) :: entries =>
    rw [linkPlacesAll, linkCountAll, List.length_append, List.length_map, length_linkPlaces e,
      length_linkPlacesAll entries]

end

theorem Entry.mem_linkPlacesAll (he : entries.lookup name = some e) (hp : place ∈ e.linkPlaces) :
    name :: place ∈ linkPlacesAll entries := by
  induction entries with
  | nil => contradiction
  | cons entry entries ih =>
    obtain ⟨other, e'⟩ := entry
    rw [linkPlacesAll, List.mem_append]
    by_cases hname : name = other
    · subst hname
      rw [List.lookup_cons_self] at he
      obtain rfl := Option.some.inj he
      exact .inl (List.mem_map_of_mem hp)
    · rw [List.lookup_cons, beq_false_of_ne hname] at he
      exact .inr (ih he)

theorem Entry.mem_linkPlaces (h : root.at? place = some (.link target)) :
    place ∈ root.linkPlaces := by
  induction place generalizing root with
  | nil =>
    obtain rfl := Option.some.inj h
    exact List.mem_singleton_self []
  | cons name place ih =>
    rw [at?] at h
    obtain ⟨e, he, hplace⟩ := Option.bind_eq_some_iff.mp h
    cases root with
    | file content => contradiction
    | link target => contradiction
    | folder entries =>
      rw [linkPlaces]
      exact mem_linkPlacesAll he (ih hplace)

/-! ## Resolving name by name -/

theorem resolveFrom_skip (hn : isName name = false) :
    resolveFrom root depth pending here (name :: names) =
      resolveFrom root depth pending here names := by
  rw [resolveFrom, hn]
  rfl

theorem resolveFrom_up :
    resolveFrom root depth pending here (".." :: names) =
      resolveFrom root depth pending here.dropLast names := by
  rw [resolveFrom]
  rfl

theorem resolveFrom_enter (hn : IsStep name)
    (he : ∀ target, root.at? (here ++ [name]) ≠ some (.link target)) :
    resolveFrom root depth pending here (name :: names) =
      resolveFrom root depth pending (here ++ [name]) names := by
  rw [resolveFrom, hn.1, if_neg (by simp), if_neg hn.2]
  dsimp only
  split
  · rename_i target hlink
    exact absurd hlink (he target)
  · rfl

theorem resolveFrom_link (hn : IsStep name) (he : root.at? (here ++ [name]) = some (.link target))
    (hp : here ++ [name] ∉ pending)
    (ht : resolveFrom root depth ((here ++ [name]) :: pending) (linkStart here target)
      (rawNames target) = .ok mid) :
    resolveFrom root (depth + 1) pending here (name :: names) =
      resolveFrom root (depth + 1) pending mid names := by
  have hcontains : pending.contains (here ++ [name]) = false := by
    simpa using hp
  rw [resolveFrom, hn.1, if_neg (by simp), if_neg hn.2]
  dsimp only
  rw [he]
  dsimp only
  rw [hcontains, if_neg (by simp)]
  unfold linkStart at ht
  rw [ht]

/-! ## Links within links -/

/-- A link that is being resolved while `n` links are still to be walked: they are on the way to
where it leads. -/
def IsPending (root : Entry) (n : Nat) (q : Place) : Prop :=
  ∃ here name target m mid, q = here ++ [name] ∧ root.at? q = some (.link target) ∧
    Walk root (linkStart here target) (rawNames target) m mid ∧ n ≤ m

theorem IsPending.mono {q : Place} (h : IsPending root n q) (hle : m ≤ n) : IsPending root m q := by
  obtain ⟨here, name, target, k, mid, hq, hlink, hwalk, hk⟩ := h
  exact ⟨here, name, target, k, mid, hq, hlink, hwalk, Nat.le_trans hle hk⟩

/-- A link is not met on the way to where it leads. -/
theorem not_mem_pending (hp : ∀ q ∈ pending, IsPending root n q)
    (he : root.at? (here ++ [name]) = some (.link target))
    (ht : Walk root (linkStart here target) (rawNames target) m mid) (hlt : m < n) :
    here ++ [name] ∉ pending := by
  intro hmem
  obtain ⟨here', name', target', m', mid', hq, hlink, hwalk, hle⟩ := hp _ hmem
  obtain ⟨rfl, hname⟩ := List.append_inj' hq rfl
  rw [he] at hlink
  obtain rfl := Entry.link.inj (Option.some.inj hlink)
  obtain ⟨rfl, -⟩ := ht.unique hwalk
  omega

/-- There are no more links to be within than there are in the tree. -/
theorem length_pending_le (hp : ∀ q ∈ pending, IsPending root n q) (hd : pending.Nodup) :
    pending.length ≤ root.linkCount := by
  rw [← Entry.length_linkPlaces]
  refine hd.length_le_of_subset ?_
  intro q hq
  obtain ⟨-, -, target, -, -, -, hlink, -⟩ := hp q hq
  exact Entry.mem_linkPlaces hlink

/-- **Resolving.** The names of a walk are resolved to where it leads. The induction is on the walk;
of the links that are being resolved it is enough to know that each has more links on its way than
are still to be walked. -/
theorem resolveFrom_of_walk (h : Walk root here names n place)
    (hp : ∀ q ∈ pending, IsPending root n q) (hd : pending.Nodup)
    (hdepth : depth + pending.length = root.linkCount) :
    resolveFrom root depth pending here names = .ok place := by
  induction h generalizing depth pending with
  | done => rw [resolveFrom]
  | skip hf hn h ih =>
    rw [resolveFrom_skip hn]
    exact ih hp hd hdepth
  | up hf h ih =>
    rw [resolveFrom_up]
    exact ih hp hd hdepth
  | enter hf hn hs he hl h ih =>
    have hentry := (Entry.at?_concat hf).trans he
    rw [resolveFrom_enter hn fun target htarget => ?_]
    · exact ih hp hd hdepth
    · rw [hentry] at htarget
      exact hl target (Option.some.inj htarget)
  | @link here mid place name target names m n entries hf hn hs he ht h iht ih =>
    have hlink := (Entry.at?_concat hf).trans he
    have hnew : here ++ [name] ∉ pending := not_mem_pending hp hlink ht (by omega)
    have hd' : ((here ++ [name]) :: pending).Nodup := List.nodup_cons.mpr ⟨hnew, hd⟩
    have hp' : ∀ q ∈ (here ++ [name]) :: pending, IsPending root m q := by
      intro q hq
      rcases List.mem_cons.mp hq with rfl | hq
      · exact ⟨here, name, target, m, mid, rfl, hlink, ht, Nat.le_refl m⟩
      · exact (hp q hq).mono (by omega)
    -- there is room for this link
    have hroom := length_pending_le hp' hd'
    rw [List.length_cons] at hroom
    obtain ⟨depth, rfl⟩ : ∃ k, depth = k + 1 := Nat.exists_eq_add_one.mpr (by omega)
    have hdepth' : depth + ((here ++ [name]) :: pending).length = root.linkCount := by
      rw [List.length_cons]
      omega
    have htarget := iht hp' hd' hdepth'
    rw [resolveFrom_link hn hlink hnew htarget]
    exact ih (fun q hq => (hp q hq).mono (by omega)) hd hdepth

/-! ## Paths on a disk -/

namespace Disk

variable {d : Disk} {p : Path}

theorem fits_of_find {spot : Spot} (h : d.find p = .ok spot) : p.text.utf8ByteSize ≤ pathLimit := by
  unfold find at h
  split at h
  · contradiction
  · rename_i hsize
    exact Nat.le_of_not_lt hsize

theorem exists_walk_of_find (h : d.find p = .ok (.entry place e)) :
    ∃ n, n ≤ linkLimit ∧ Walk d.root (d.startPlace p) p.names n place ∧
      d.root.at? place = some e := by
  unfold find at h
  rw [if_neg (Nat.not_lt.mpr (fits_of_find h))] at h
  exact exists_walk_of_follow h

/-- Where names are resolved without a circle, the real path is their place. -/
theorem resolve_of_resolveFrom (hnul : p.hasNul = false)
    (h : resolveFrom d.root d.root.linkCount [] (d.startPlace p) p.names = .ok place) :
    d.resolve p = .ok (.ofRoot place) := by
  unfold resolve
  rw [hnul, if_neg (by simp), h]

/-- **Real paths.** The real path of a path that the system can follow is the place that it leads
to. -/
theorem resolve_of_find (hnul : p.hasNul = false) (h : d.find p = .ok (.entry place e)) :
    d.resolve p = .ok (.ofRoot place) := by
  obtain ⟨n, -, hwalk, -⟩ := exists_walk_of_find h
  exact resolve_of_resolveFrom hnul (resolveFrom_of_walk hwalk (by simp) (by simp) rfl)

theorem entryAt?_of_follow (hnul : p.hasNul = false) (hsize : p.text.utf8ByteSize ≤ pathLimit)
    (h : follow d.root true linkLimit (d.startPlace p) p.names = .ok (.entry place e)) :
    d.entryAt? p = .ok (some e) := by
  have hfind : d.find p = .ok (.entry place e) := by
    unfold find
    rw [if_neg (Nat.not_lt.mpr hsize), h]
  unfold entryAt? entryAt
  rw [hnul, if_neg (by simp), hfind]

theorem entryAt?_of_follow_missing (hnul : p.hasNul = false)
    (hsize : p.text.utf8ByteSize ≤ pathLimit)
    (h : follow d.root true linkLimit (d.startPlace p) p.names = .error .missing) :
    d.entryAt? p = .ok none := by
  have hfind : d.find p = .error .missing := by
    unfold find
    rw [if_neg (Nat.not_lt.mpr hsize), h]
  unfold entryAt? entryAt
  rw [hnul, if_neg (by simp), hfind]

end Disk

/-! ## Real places -/

/-- A place that is reached from the root of the tree by names of entries, without links. -/
inductive IsReal (root : Entry) : Place → Prop where
  | root : IsReal root []
  | enter {place : Place} {name : String} {entries : List (String × Entry)} {e : Entry}
      (h : IsReal root place) (hf : root.at? place = some (.folder entries)) (hn : IsStep name)
      (hs : name.utf8ByteSize ≤ nameLimit) (he : entries.lookup name = some e)
      (hl : ∀ target, e ≠ .link target) : IsReal root (place ++ [name])

namespace IsReal

/-- What is walked from a real place can be walked from the root. -/
theorem walk_append {rest : List String} {place' : Place} (h : IsReal root place)
    (hw : Walk root place rest n place') : Walk root [] (place ++ rest) n place' := by
  induction h generalizing rest with
  | root => exact hw
  | enter h hf hn hs he hl ih =>
    rw [List.append_assoc]
    exact ih (.enter hf hn hs he hl hw)

theorem walk (h : IsReal root place) : Walk root [] place 0 place := by
  have hw := h.walk_append .done
  rw [List.append_nil] at hw
  exact hw

theorem dropLast (h : IsReal root place) : IsReal root place.dropLast := by
  cases h with
  | root => exact .root
  | enter h hf hn hs he hl =>
    rw [List.dropLast_concat]
    exact h

theorem linkStart (h : IsReal root here) : IsReal root (linkStart here target) := by
  unfold Files.linkStart
  split
  · exact h
  · exact .root

/-- A walk from a real place leads to one. -/
theorem of_walk (h : IsReal root here) (hw : Walk root here names n place) : IsReal root place := by
  induction hw with
  | done => exact h
  | skip hf hn hw ih => exact ih h
  | up hf hw ih => exact ih h.dropLast
  | enter hf hn hs he hl hw ih => exact ih (h.enter hf hn hs he hl)
  | link hf hn hs he ht hw iht ih => exact ih (iht h.linkStart)

end IsReal

/-! ## The same entry from both -/

namespace Disk

variable {d : Disk} {p q : Path}

theorem entryAt?_congr (hnul : p.hasNul = q.hasNul) (hp : p.text.utf8ByteSize ≤ pathLimit)
    (hq : q.text.utf8ByteSize ≤ pathLimit)
    (h : follow d.root true linkLimit (d.startPlace p) p.names =
      follow d.root true linkLimit (d.startPlace q) q.names) : d.entryAt? p = d.entryAt? q := by
  have hfind : d.find p = d.find q := by
    unfold find
    rw [if_neg (Nat.not_lt.mpr hp), if_neg (Nat.not_lt.mpr hq), h]
  unfold entryAt? entryAt
  rw [hnul, hfind]

/-- A folder holds the same entries for its path and for its real path, unless one of them is too
long for the system. A link is left out since fewer links may be followed on a path that has some. -/
theorem entryAt?_child_eq (hhere : IsReal d.root d.here)
    (h : d.find p = .ok (.entry place (.folder entries))) (hn : IsStep name)
    (hs : name.utf8ByteSize ≤ nameLimit) (hl : ∀ target, entries.lookup name ≠ some (.link target))
    (hnul : p.hasNul = (Path.ofRoot place).hasNul)
    (hp : (p.child name).text.utf8ByteSize ≤ pathLimit)
    (hplace : ((Path.ofRoot place).child name).text.utf8ByteSize ≤ pathLimit) :
    d.entryAt? (p.child name) = d.entryAt? ((Path.ofRoot place).child name) := by
  obtain ⟨n, hle, hwalk, hfolder⟩ := exists_walk_of_find h
  have hstart : IsReal d.root (d.startPlace p) := by
    unfold startPlace
    split
    · exact hhere
    · exact .root
  have hreal : IsReal d.root place := hstart.of_walk hwalk
  have hchild : (p.child name).hasNul = ((Path.ofRoot place).child name).hasNul := by
    unfold Path.hasNul at hnul ⊢
    unfold Path.child
    rw [List.any_append, List.any_append, hnul]
  refine entryAt?_congr hchild hp hplace ?_
  calc follow d.root true linkLimit (d.startPlace p) (p.names ++ [name])
      = follow d.root true (linkLimit - n) place [name] := follow_append_of_walk hwalk hle
    _ = follow d.root true (linkLimit - 0) place [name] := by
        rw [follow_last hfolder hn hs hl, follow_last hfolder hn hs hl]
    _ = follow d.root true linkLimit [] (place ++ [name]) :=
        (follow_append_of_walk hreal.walk (Nat.zero_le _)).symm

/-- The current folder is its own real path. -/
theorem resolve_here (hhere : IsReal d.root d.here) (hnul : (Path.ofRoot d.here).hasNul = false) :
    d.resolve (.ofRoot d.here) = .ok (.ofRoot d.here) :=
  resolve_of_resolveFrom hnul (resolveFrom_of_walk hhere.walk (by simp) (by simp) rfl)

end Disk

end ToolchainChoice.Files
