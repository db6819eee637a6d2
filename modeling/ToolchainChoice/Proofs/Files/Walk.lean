import ToolchainChoice.Files.Resolve

/-!
# Walks

A path that the system can follow, taken apart into its names: none of them is missing, and what a
link stands for is walked in its place. A walk counts the links on it and sets no limit to them, so
that it says the same as following the path as long as the limit is not reached.
-/
namespace ToolchainChoice.Files

/-- A name that leads from a folder to one of its entries. -/
def IsStep (name : String) : Prop := isName name = true ∧ name ≠ ".."

/-- Where the target of a link in the folder `here` starts. -/
def linkStart (here : Place) (target : String) : Place :=
  if Path.startOf target.toList = .current then here else []

/-- From `here` the names lead to `place`, over `n` links. -/
inductive Walk (root : Entry) : Place → List String → Nat → Place → Prop where
  | done {here : Place} : Walk root here [] 0 here
  | skip {here place : Place} {name : String} {names : List String} {n : Nat}
      {entries : List (String × Entry)} (hf : root.at? here = some (.folder entries))
      (hn : isName name = false) (h : Walk root here names n place) :
      Walk root here (name :: names) n place
  | up {here place : Place} {names : List String} {n : Nat} {entries : List (String × Entry)}
      (hf : root.at? here = some (.folder entries)) (h : Walk root here.dropLast names n place) :
      Walk root here (".." :: names) n place
  | enter {here place : Place} {name : String} {names : List String} {n : Nat}
      {entries : List (String × Entry)} {e : Entry} (hf : root.at? here = some (.folder entries))
      (hn : IsStep name) (hs : name.utf8ByteSize ≤ nameLimit) (he : entries.lookup name = some e)
      (hl : ∀ target, e ≠ .link target) (h : Walk root (here ++ [name]) names n place) :
      Walk root here (name :: names) n place
  | link {here mid place : Place} {name target : String} {names : List String} {m n : Nat}
      {entries : List (String × Entry)} (hf : root.at? here = some (.folder entries))
      (hn : IsStep name) (hs : name.utf8ByteSize ≤ nameLimit)
      (he : entries.lookup name = some (.link target))
      (ht : Walk root (linkStart here target) (rawNames target) m mid)
      (h : Walk root mid names n place) : Walk root here (name :: names) (m + n + 1) place

variable {root e : Entry} {here mid place : Place} {name target : String} {names rest : List String}
variable {entries : List (String × Entry)} {links m n : Nat}

/-! ## Places in a tree -/

theorem Entry.at?_append (e : Entry) (p q : Place) : e.at? (p ++ q) = (e.at? p).bind (·.at? q) := by
  induction p generalizing e with
  | nil => rfl
  | cons name p ih =>
    rw [List.cons_append, Entry.at?, Entry.at?]
    cases e.child? name with
    | none => rfl
    | some c => exact ih c

theorem Entry.at?_concat (h : root.at? here = some (.folder entries)) :
    root.at? (here ++ [name]) = entries.lookup name := by
  rw [at?_append, h]
  change (entries.lookup name).bind (·.at? []) = entries.lookup name
  cases entries.lookup name <;> rfl

/-- What is in a folder under a name is determined by the place of the folder. -/
theorem Entry.lookup_unique {entries' : List (String × Entry)} {e' : Entry}
    (hf : root.at? here = some (.folder entries)) (hf' : root.at? here = some (.folder entries'))
    (he : entries.lookup name = some e) (he' : entries'.lookup name = some e') : e = e' := by
  rw [hf] at hf'
  obtain rfl := Entry.folder.inj (Option.some.inj hf')
  rw [he] at he'
  exact Option.some.inj he'

/-! ## Walks -/

namespace Walk

/-- A walk can be interrupted between any two names. -/
theorem exists_of_append (h : Walk root here (names ++ rest) n place) :
    ∃ n₁ n₂ mid, Walk root here names n₁ mid ∧ Walk root mid rest n₂ place ∧ n = n₁ + n₂ := by
  induction names generalizing here n with
  | nil => exact ⟨0, n, here, .done, h, (Nat.zero_add n).symm⟩
  | cons name names ih =>
    cases h with
    | skip hf hn h =>
      obtain ⟨n₁, n₂, mid, h₁, h₂, rfl⟩ := ih h
      exact ⟨n₁, n₂, mid, .skip hf hn h₁, h₂, rfl⟩
    | up hf h =>
      obtain ⟨n₁, n₂, mid, h₁, h₂, rfl⟩ := ih h
      exact ⟨n₁, n₂, mid, .up hf h₁, h₂, rfl⟩
    | enter hf hn hs he hl h =>
      obtain ⟨n₁, n₂, mid, h₁, h₂, rfl⟩ := ih h
      exact ⟨n₁, n₂, mid, .enter hf hn hs he hl h₁, h₂, rfl⟩
    | link hf hn hs he ht h =>
      obtain ⟨n₁, n₂, mid, h₁, h₂, rfl⟩ := ih h
      exact ⟨_, n₂, mid, .link hf hn hs he ht h₁, h₂, by omega⟩

/-- There is one walk along given names at most. The induction is on the walk; where it goes on is
determined by the first name and what is in the folder. -/
theorem unique {n' : Nat} {place' : Place} (h : Walk root here names n place)
    (h' : Walk root here names n' place') : n = n' ∧ place = place' := by
  induction h generalizing n' place' with
  | done =>
    cases h'
    exact ⟨rfl, rfl⟩
  | skip hf hn h ih =>
    cases h' with
    | skip _ _ h' => exact ih h'
    | up _ _ => contradiction
    | enter _ hn' _ _ _ _ => exact absurd hn'.1 (by simp [hn])
    | link _ hn' _ _ _ _ => exact absurd hn'.1 (by simp [hn])
  | up hf h ih =>
    cases h' with
    | skip _ hn' _ => contradiction
    | up _ h' => exact ih h'
    | enter _ hn' _ _ _ _ => exact absurd rfl hn'.2
    | link _ hn' _ _ _ _ => exact absurd rfl hn'.2
  | enter hf hn hs he hl h ih =>
    cases h' with
    | skip _ hn' _ => exact absurd hn.1 (by simp [hn'])
    | up _ _ => exact absurd rfl hn.2
    | enter _ _ _ _ _ h' => exact ih h'
    | link hf' _ _ he' _ _ => exact absurd (Entry.lookup_unique hf hf' he he') (hl _)
  | link hf hn hs he ht h iht ih =>
    cases h' with
    | skip _ hn' _ => exact absurd hn.1 (by simp [hn'])
    | up _ _ => exact absurd rfl hn.2
    | enter hf' _ _ he' hl' _ => exact absurd (Entry.lookup_unique hf' hf he' he) (hl' _)
    | link hf' _ _ he' ht' h' =>
      obtain rfl := Entry.link.inj (Entry.lookup_unique hf hf' he he')
      obtain ⟨rfl, rfl⟩ := iht ht'
      obtain ⟨rfl, rfl⟩ := ih h'
      exact ⟨rfl, rfl⟩

end Walk

/-! ## Trees that grow -/

namespace Entry

/-- What an entry is as far as a path is concerned: the content of a file and the entries of a
folder are left out. -/
def kind : Entry → Entry
  | .file _ => .file .empty
  | .folder _ => .empty
  | .link target => .link target

/-- What the one tree holds the other holds as well, by its kind. -/
def Grows (a b : Entry) : Prop :=
  ∀ place e, a.at? place = some e → ∃ e', b.at? place = some e' ∧ e'.kind = e.kind

variable {root' : Entry}

theorem Grows.exists_folder (h : root.Grows root') (hf : root.at? place = some (.folder entries)) :
    ∃ entries', root'.at? place = some (.folder entries') := by
  obtain ⟨e', he', hkind⟩ := h place _ hf
  cases e' with
  | file content => contradiction
  | link target => contradiction
  | folder entries' => exact ⟨entries', he'⟩

theorem Grows.at?_link (h : root.Grows root') (hl : root.at? place = some (.link target)) :
    root'.at? place = some (.link target) := by
  obtain ⟨e', he', hkind⟩ := h place _ hl
  cases e' with
  | file content => contradiction
  | folder entries => contradiction
  | link target' =>
    obtain rfl := Entry.link.inj hkind
    exact he'

theorem Grows.exists_not_link (h : root.Grows root') (he : root.at? place = some e)
    (hl : ∀ target, e ≠ .link target) :
    ∃ e', root'.at? place = some e' ∧ ∀ target, e' ≠ .link target := by
  obtain ⟨e', he', hkind⟩ := h place e he
  refine ⟨e', he', ?_⟩
  rintro target rfl
  cases e with
  | file content => contradiction
  | folder entries => contradiction
  | link target' => exact hl target' rfl

end Entry

/-- A walk through a tree is one through every tree that it grows to. -/
theorem Walk.of_grows {root' : Entry} (h : Walk root here names n place) (hg : root.Grows root') :
    Walk root' here names n place := by
  induction h with
  | done => exact .done
  | skip hf hn h ih =>
    obtain ⟨entries', hf'⟩ := hg.exists_folder hf
    exact .skip hf' hn ih
  | up hf h ih =>
    obtain ⟨entries', hf'⟩ := hg.exists_folder hf
    exact .up hf' ih
  | enter hf hn hsize he hl h ih =>
    obtain ⟨entries', hf'⟩ := hg.exists_folder hf
    obtain ⟨e', he', hl'⟩ := hg.exists_not_link ((Entry.at?_concat hf).trans he) hl
    exact .enter hf' hn hsize ((Entry.at?_concat hf').symm.trans he') hl' ih
  | link hf hn hsize he ht h iht ih =>
    obtain ⟨entries', hf'⟩ := hg.exists_folder hf
    have hlink := hg.at?_link ((Entry.at?_concat hf).trans he)
    exact .link hf' hn hsize ((Entry.at?_concat hf').symm.trans hlink) iht ih

/-! ## Following -/

theorem isStep_of_not (hn : ¬(!isName name) = true) (hu : ¬name = "..") : IsStep name :=
  ⟨by simpa using hn, hu⟩

/-- What the system finds it has walked to. The induction is that of following; the target of a
link and the names behind it are one path there and two here. -/
theorem exists_walk_of_follow (h : follow root true links here names = .ok (.entry place e)) :
    ∃ n, n ≤ links ∧ Walk root here names n place ∧ root.at? place = some e := by
  fun_induction follow root true links here names with
  | case1 links here e' he =>
    obtain ⟨rfl, rfl⟩ := Spot.entry.inj (Except.ok.inj h)
    exact ⟨0, Nat.zero_le _, .done, he⟩
  | case2 | case5 | case7 | case9 | case12 | case13 => contradiction
  | case3 links here name names entries hf hn ih =>
    obtain ⟨n, hle, hwalk, he⟩ := ih h
    exact ⟨n, hle, .skip hf (by simpa using hn) hwalk, he⟩
  | case4 links here names entries hf hn ih =>
    obtain ⟨n, hle, hwalk, he⟩ := ih h
    exact ⟨n, hle, .up hf hwalk, he⟩
  | case6 =>
    have hspot := Except.ok.inj h
    contradiction
  | case8 links here name names entries hf hn hu hs target hlookup hlast =>
    simp at hlast
  | case10 here name names entries hf hn hu hs target hlookup hlast links start ih =>
    obtain ⟨n, hle, hwalk, he⟩ := ih h
    obtain ⟨n₁, n₂, mid, htarget, hnames, rfl⟩ := hwalk.exists_of_append
    refine ⟨n₁ + n₂ + 1, by omega, ?_, he⟩
    exact .link hf (isStep_of_not hn hu) (Nat.le_of_not_lt hs) hlookup htarget hnames
  | case11 links here name names entries hf hn hu hs e' hl hlookup ih =>
    obtain ⟨n, hle, hwalk, he⟩ := ih h
    exact ⟨n, hle, .enter hf (isStep_of_not hn hu) (Nat.le_of_not_lt hs) hlookup hl hwalk, he⟩

theorem follow_skip (hf : root.at? here = some (.folder entries)) (hn : isName name = false) :
    follow root true links here (name :: names) = follow root true links here names := by
  rw [follow, hf, hn]
  rfl

theorem follow_up (hf : root.at? here = some (.folder entries)) :
    follow root true links here (".." :: names) = follow root true links here.dropLast names := by
  rw [follow, hf]
  rfl

theorem follow_enter (hf : root.at? here = some (.folder entries)) (hn : IsStep name)
    (hs : name.utf8ByteSize ≤ nameLimit) (he : entries.lookup name = some e)
    (hl : ∀ target, e ≠ .link target) :
    follow root true links here (name :: names) = follow root true links (here ++ [name]) names := by
  rw [follow, hf]
  dsimp only
  rw [hn.1, if_neg (by simp), if_neg hn.2, if_neg (Nat.not_lt.mpr hs), he]
  cases e with
  | link target => exact absurd rfl (hl target)
  | file content => rfl
  | folder entries => rfl

theorem follow_link (hf : root.at? here = some (.folder entries)) (hn : IsStep name)
    (hs : name.utf8ByteSize ≤ nameLimit) (he : entries.lookup name = some (.link target)) :
    follow root true (links + 1) here (name :: names) =
      follow root true links (linkStart here target) (rawNames target ++ names) := by
  rw [follow, hf]
  dsimp only
  rw [hn.1, if_neg (by simp), if_neg hn.2, if_neg (Nat.not_lt.mpr hs), he]
  dsimp only
  rw [if_neg (by simp)]
  rfl

/-- The last name of a path, where it is not that of a link. -/
theorem follow_last (hf : root.at? here = some (.folder entries)) (hn : IsStep name)
    (hs : name.utf8ByteSize ≤ nameLimit) (hl : ∀ target, entries.lookup name ≠ some (.link target)) :
    follow root true links here [name] =
      .ok (match entries.lookup name with
        | none => .free here name
        | some e => .entry (here ++ [name]) e) := by
  cases he : entries.lookup name with
  | none =>
    rw [follow, hf]
    dsimp only
    rw [hn.1, if_neg (by simp), if_neg hn.2, if_neg (Nat.not_lt.mpr hs), he]
    rfl
  | some e =>
    have hentry := (Entry.at?_concat hf).trans he
    have hlink : ∀ target, e ≠ .link target := by
      rintro target rfl
      exact hl target he
    rw [follow_enter hf hn hs he hlink, follow, hentry]

/-- The system follows a walk name by name, whatever comes after it. -/
theorem follow_append_of_walk (h : Walk root here names n place) (hlinks : n ≤ links) :
    follow root true links here (names ++ rest) = follow root true (links - n) place rest := by
  induction h generalizing links rest with
  | done => rfl
  | skip hf hn h ih =>
    rw [List.cons_append, follow_skip hf hn]
    exact ih hlinks
  | up hf h ih =>
    rw [List.cons_append, follow_up hf]
    exact ih hlinks
  | enter hf hn hs he hl h ih =>
    rw [List.cons_append, follow_enter hf hn hs he hl]
    exact ih hlinks
  | @link here mid place name target names m n entries hf hn hs he ht h iht ih =>
    obtain ⟨links, rfl⟩ : ∃ k, links = k + 1 := Nat.exists_eq_add_one.mpr (by omega)
    rw [List.cons_append, follow_link hf hn hs he, iht (by omega), ih (by omega)]
    congr 1
    omega

end ToolchainChoice.Files
