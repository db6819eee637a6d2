import Mathlib
import ToolchainChoice.Proofs.Identification.Usable
import ToolchainChoice.Proofs.Trace.Records
import ToolchainChoice.Proofs.Version.Texts

/-!
# What a workspace requires

The manifests are read one after another, and the greatest version so far is kept with the manifest
that it comes from. In the end this is the greatest of all, from the first of the manifests that
declare it; versions that are written differently may be equally great.

It is assumed that the scan comes to an end. It fails if one of the versions has a number that is
too long, and then nothing is said.
-/
namespace ToolchainChoice.Workspace

open Files (Path Disk)
open Traced

variable {d : Disk} {root manifest : Path} {past rest found : List Path} {version : String}
variable {best best' : Option Requirement} {r : Requirement}

/-! ## One manifest -/

/-- A version is read from the manifest. -/
def Declares (d : Disk) (manifest : Path) (version : String) : Prop :=
  (declaredIn d manifest).result = .ok (some version)

/-- The content of the manifest cannot be read, or is no text. -/
def Unreadable (d : Disk) (manifest : Path) : Prop :=
  ∀ content, d.read manifest = .ok content → Files.decodeText? content = none

/-- The manifest is read and has a directive, but not for a version. -/
def Misdeclares (d : Disk) (manifest : Path) : Prop :=
  ∃ content text version, d.read manifest = .ok content ∧
    Files.decodeText? content = some text ∧ directive? text = some version ∧
    Version.isValid version = .ok false

/-- What is said about a manifest that cannot be used. -/
def complaint? (d : Disk) (manifest : Path) : Option String :=
  match d.read manifest with
  | .error fault => some ("Failed to read " ++ manifest.text ++ ": " ++ fault.message)
  | .ok content =>
    match Files.decodeText? content with
    | none => some ("Failed to read " ++ manifest.text ++ ": " ++ "the text is not UTF-8")
    | some text =>
      match directive? text with
      | none => none
      | some version =>
        match Version.isValid version with
        | .ok false =>
          some ("Ignoring invalid go directive '" ++ version ++ "' in " ++ manifest.text)
        | _ => none

theorem complaint?_isSome_iff :
    (complaint? d manifest).isSome = true ↔ Unreadable d manifest ∨ Misdeclares d manifest := by
  unfold complaint? Unreadable Misdeclares
  cases hread : d.read manifest with
  | error fault => simp
  | ok content =>
    cases htext : Files.decodeText? content with
    | none => simp [htext]
    | some text =>
      cases hdirective : directive? text with
      | none => simp [htext, hdirective]
      | some version =>
        cases hvalid : Version.isValid version with
        | error e => simp [htext, hdirective, hvalid]
        | ok valid => cases valid <;> simp [htext, hdirective, hvalid]

/-- A warning as the scan gives it. -/
def warning (message : String) : Log.Record := ⟨.warning, .workspace, message⟩

theorem recordsAt_unreadable (reason : String) :
    (unreadable manifest reason).recordsAt .warning =
      [warning ("Failed to read " ++ manifest.text ++ ": " ++ reason)] := by
  unfold unreadable
  rw [recordsAt_bind_of_ok rfl, recordsAt_log, recordsAt_pure, List.append_nil, warning]
  simp only [Symbols.ofString_append]

theorem recordsAt_debug_pure {α : Type} (message : Symbols) (a : α) :
    (do debug .workspace message; return a : Traced α).recordsAt .warning = [] := by
  have hlevel : Log.Level.debug ≠ .warning := by decide
  rw [recordsAt_bind_of_ok rfl, recordsAt_pure, List.append_nil]
  exact recordsAt_log_of_ne hlevel ..

/-- A manifest is warned of exactly if there is something to complain of. -/
theorem recordsAt_declaredIn {answer : Option String}
    (h : (declaredIn d manifest).result = .ok answer) :
    (declaredIn d manifest).recordsAt .warning =
      ((complaint? d manifest).map warning).toList := by
  unfold declaredIn at h ⊢
  unfold complaint?
  cases hread : d.read manifest with
  | error fault => exact recordsAt_unreadable _
  | ok content =>
    simp only [hread] at h ⊢
    cases htext : Files.decodeText? content with
    | none => exact recordsAt_unreadable _
    | some text =>
      simp only [htext] at h ⊢
      cases hdirective : directive? text with
      | none => exact recordsAt_debug_pure _ _
      | some version =>
        simp only [hdirective] at h ⊢
        obtain ⟨valid, hlifted, -⟩ := result_bind_eq_ok_iff.mp h
        have hvalid := (result_lift _).symm.trans hlifted
        rw [recordsAt_bind_of_ok hlifted, recordsAt_lift, List.nil_append, hvalid]
        cases valid with
        | true => exact recordsAt_pure _
        | false =>
          rw [if_neg (by simp), recordsAt_bind_of_ok rfl, recordsAt_log, recordsAt_pure,
            List.append_nil, Option.map_some, Option.toList_some, warning]
          simp only [Symbols.ofString_append]

/-! ## The greatest version -/

/-- Of two texts that are versions, the left one is not below the right one. -/
def AtLeast (left right : String) : Prop :=
  ∃ order, Version.compareTexts left right = .ok order ∧ order ≠ .lt

theorem atLeast_of_gt {left right : String} (h : Version.compareTexts left right = .ok .gt) :
    AtLeast left right :=
  ⟨.gt, h, by decide⟩

theorem atLeast_self (h : IsUsable version) : AtLeast version version := by
  obtain ⟨v, hv⟩ := Version.isValid_eq_true_iff.mp h
  exact ⟨.eq, Version.compareTexts_self hv, by decide⟩

theorem compareTexts_eq_gt_of_atLeast {a b c : String}
    (hab : Version.compareTexts a b = .ok .gt) (hbc : AtLeast b c) :
    Version.compareTexts a c = .ok .gt := by
  obtain ⟨order, hbc, hne⟩ := hbc
  obtain ⟨u, v, hu, hv, huv⟩ := Version.compareTexts_eq_ok_iff.mp hab
  obtain ⟨v', w, hv', hw, hvw⟩ := Version.compareTexts_eq_ok_iff.mp hbc
  obtain rfl := except_ok_unique hv hv'
  have hge : (compare v w).isGE = true := by
    rw [hvw]
    exact Ordering.ne_lt_iff_isGE.mp hne
  have huw : compare u w = .gt := Std.TransCmp.gt_of_gt_of_isGE huv hge
  exact Version.compareTexts_eq_ok_iff.mpr ⟨u, w, hu, hw, huw⟩

/-- A requirement is the greatest of what some manifests declare, from the first that declares one
so great. -/
structure IsStrongest (d : Disk) (manifests : List Path) (r : Requirement) : Prop where
  declares : Declares d r.source r.version
  atLeast : ∀ manifest ∈ manifests, ∀ version, Declares d manifest version →
    AtLeast r.version version
  first : ∃ before after, manifests = before ++ r.source :: after ∧
    ∀ manifest ∈ before, ∀ version, Declares d manifest version →
      Version.compareTexts r.version version = .ok .gt

/-- What some manifests require: the greatest version, or nothing if none of them declares one. -/
structure Requires (d : Disk) (manifests : List Path) (best : Option Requirement) : Prop where
  greatest : ∀ r ∈ best, IsStrongest d manifests r
  silent : best = none → ∀ manifest ∈ manifests, ∀ version, ¬ Declares d manifest version

theorem requires_nil : Requires d [] none where
  greatest r hr := by contradiction
  silent _ manifest hmem := by contradiction

/-- A further manifest changes nothing if what it declares is not greater. -/
theorem IsStrongest.append (h : IsStrongest d past r)
    (hnew : ∀ version, Declares d manifest version → AtLeast r.version version) :
    IsStrongest d (past ++ [manifest]) r := by
  refine ⟨h.declares, ?_, ?_⟩
  · intro m hm version hversion
    rcases List.mem_append.mp hm with hm | hm
    · exact h.atLeast m hm version hversion
    · obtain rfl := List.mem_singleton.mp hm
      exact hnew version hversion
  · obtain ⟨before, after, rfl, hbefore⟩ := h.first
    refine ⟨before, after ++ [manifest], ?_, hbefore⟩
    rw [List.append_assoc, List.cons_append]

/-- A further manifest is the first to declare what is greater than all before it. -/
theorem isStrongest_append_of_gt (hnew : Declares d manifest version)
    (hgt : ∀ m ∈ past, ∀ w, Declares d m w → Version.compareTexts version w = .ok .gt) :
    IsStrongest d (past ++ [manifest]) ⟨version, manifest⟩ := by
  refine ⟨hnew, ?_, past, [], rfl, hgt⟩
  intro m hm w hw
  rcases List.mem_append.mp hm with hm | hm
  · exact atLeast_of_gt (hgt m hm w hw)
  · obtain rfl := List.mem_singleton.mp hm
    obtain rfl := Option.some.inj (except_ok_unique hnew hw)
    exact atLeast_self (isUsable_of_declaredIn hnew)

theorem Requires.append_of_none (h : Requires d past best)
    (hnone : (declaredIn d manifest).result = .ok none) :
    Requires d (past ++ [manifest]) best := by
  have hnot : ∀ version, ¬ Declares d manifest version := by
    intro version hversion
    have hsome := except_ok_unique hnone hversion
    contradiction
  refine ⟨?_, ?_⟩
  · intro r hr
    exact (h.greatest r hr).append fun version hversion => absurd hversion (hnot version)
  · intro hbest m hm
    rcases List.mem_append.mp hm with hm | hm
    · exact h.silent hbest m hm
    · obtain rfl := List.mem_singleton.mp hm
      exact hnot

/-- One round: the version of a further manifest is compared with the greatest so far. -/
theorem Requires.append_of_improve (h : Requires d past best)
    (hnew : Declares d manifest version)
    (himprove : Requirement.improve best manifest version = .ok best') :
    Requires d (past ++ [manifest]) best' := by
  cases best with
  | none =>
    obtain rfl := Except.ok.inj himprove
    refine ⟨?_, by simp⟩
    intro r hr
    obtain rfl := Option.some.inj hr
    exact isStrongest_append_of_gt hnew fun m hm w hw => absurd hw (h.silent rfl m hm w)
  | some r =>
    have hr := h.greatest r rfl
    obtain ⟨order, horder, hnext⟩ := except_bind_eq_ok_iff.mp himprove
    obtain rfl := Except.ok.inj hnext
    refine ⟨?_, by simp⟩
    intro next hnext
    obtain rfl := Option.some.inj hnext
    by_cases hgt : order = .gt
    · rw [if_pos hgt]
      rw [hgt] at horder
      refine isStrongest_append_of_gt hnew fun m hm w hw => ?_
      exact compareTexts_eq_gt_of_atLeast horder (hr.atLeast m hm w hw)
    · rw [if_neg hgt]
      refine hr.append fun w hw => ?_
      obtain rfl := Option.some.inj (except_ok_unique hnew hw)
      refine ⟨order.swap, Version.compareTexts_swap horder, ?_⟩
      intro hlt
      exact hgt (Ordering.swap_eq_lt.mp hlt)

/-! ## All manifests -/

/-- By induction on the manifests that are left, with those that have been read behind them. -/
theorem Requires.append_strongest (h : Requires d past best)
    (hrest : (strongest d best rest).result = .ok best') : Requires d (past ++ rest) best' := by
  induction rest generalizing past best with
  | nil =>
    obtain rfl := Except.ok.inj hrest
    rw [List.append_nil]
    exact h
  | cons manifest rest ih =>
    rw [strongest] at hrest
    obtain ⟨declared, hdeclared, hrest⟩ := result_bind_eq_ok_iff.mp hrest
    rw [List.append_cons]
    cases declared with
    | none => exact ih (h.append_of_none hdeclared) hrest
    | some version =>
      obtain ⟨next, himprove, hrest⟩ := result_bind_eq_ok_iff.mp hrest
      exact ih (h.append_of_improve hdeclared himprove) hrest

theorem recordsAt_strongest (h : (strongest d best found).result = .ok best') :
    (strongest d best found).recordsAt .warning =
      (found.filterMap (complaint? d)).map warning := by
  induction found generalizing best with
  | nil => rfl
  | cons manifest rest ih =>
    rw [strongest] at h ⊢
    obtain ⟨declared, hdeclared, hrest⟩ := result_bind_eq_ok_iff.mp h
    have hrecords := recordsAt_declaredIn hdeclared
    have hcomplaints : ((manifest :: rest).filterMap (complaint? d)).map warning =
        ((complaint? d manifest).map warning).toList ++
          (rest.filterMap (complaint? d)).map warning := by
      rw [List.filterMap_cons]
      cases complaint? d manifest <;> rfl
    rw [recordsAt_bind_of_ok hdeclared, hrecords, hcomplaints]
    congr 1
    cases declared with
    | none => exact ih hrest
    | some version =>
      obtain ⟨next, himprove, hrest⟩ := result_bind_eq_ok_iff.mp hrest
      have himprove' : (liftM (Requirement.improve best manifest version) :
        Traced (Option Requirement)).result = .ok next := himprove
      rw [recordsAt_bind_of_ok himprove', recordsAt_lift, List.nil_append]
      exact ih hrest

/-! ## The workspace -/

theorem recordsAt_manifests (h : (manifests d root).result = .ok found) :
    (manifests d root).recordsAt .warning = [] := by
  unfold manifests at h ⊢
  split at h
  · contradiction
  · split
    · rfl
    · exact recordsAt_debug_pure _ _
  · contradiction

/-- The requirement of a workspace is that of its manifests, and only they are warned of. -/
theorem exists_manifests_of_requirement (h : (requirement d root).result = .ok best) :
    ∃ found, (manifests d root).result = .ok found ∧
      (strongest d none found).result = .ok best ∧
      (requirement d root).recordsAt .warning = (strongest d none found).recordsAt .warning := by
  unfold requirement at h ⊢
  obtain ⟨found, hfound, h⟩ := result_bind_eq_ok_iff.mp h
  obtain ⟨greatest, hgreatest, h⟩ := result_bind_eq_ok_iff.mp h
  rw [recordsAt_bind_of_ok hfound, recordsAt_manifests hfound, List.nil_append,
    recordsAt_bind_of_ok hgreatest]
  refine ⟨found, hfound, ?_⟩
  cases greatest with
  | none =>
    obtain rfl : none = best := Except.ok.inj h
    exact ⟨hgreatest, by rw [recordsAt_debug_pure, List.append_nil]⟩
  | some r =>
    obtain rfl : some r = best := Except.ok.inj h
    exact ⟨hgreatest, by rw [recordsAt_debug_pure, List.append_nil]⟩

/-- **Requirements.** A workspace requires something exactly if a version is read from one of its
manifests. It is then the greatest of these versions, and its source is the first manifest that
declares one so great. There is one warning for each manifest that cannot be read or has a directive
for what is no version, in the order of the manifests, and no other. -/
theorem requirement_is_first_greatest (h : (requirement d root).result = .ok best) :
    ∃ found, (manifests d root).result = .ok found ∧
      (best.isSome = true ↔ ∃ manifest ∈ found, ∃ version, Declares d manifest version) ∧
      (∀ r ∈ best, IsStrongest d found r) ∧
      (requirement d root).recordsAt .warning = (found.filterMap (complaint? d)).map warning ∧
      ∀ manifest, (complaint? d manifest).isSome = true ↔
        Unreadable d manifest ∨ Misdeclares d manifest := by
  obtain ⟨found, hfound, hstrongest, hrecords⟩ := exists_manifests_of_requirement h
  have hrequires : Requires d found best := requires_nil.append_strongest hstrongest
  refine ⟨found, hfound, ?_, hrequires.greatest, ?_, fun _ => complaint?_isSome_iff⟩
  · constructor
    · intro hsome
      obtain ⟨r, rfl⟩ := Option.isSome_iff_exists.mp hsome
      have hr := hrequires.greatest r rfl
      obtain ⟨before, after, hsplit, -⟩ := hr.first
      refine ⟨r.source, ?_, r.version, hr.declares⟩
      rw [hsplit]
      exact List.mem_append_right before List.mem_cons_self
    · rintro ⟨manifest, hmem, version, hdeclares⟩
      cases best with
      | none => exact absurd hdeclares (hrequires.silent rfl manifest hmem version)
      | some r => rfl
  · rw [hrecords]
    exact recordsAt_strongest hstrongest

/-- A workspace with two modules that declare one version in two ways, one that declares none and
one that is no text. -/
def tiedDisk : Disk where
  root := .folder [
    ("go.mod", .file "go 1.20\n".toUTF8),
    ("lib", .folder [("go.mod", .file "go 1.20.0\n".toUTF8)]),
    ("old", .folder [("go.mod", .file "go 1.x\n".toUTF8)]),
    ("raw", .folder [("go.mod", .file ⟨#[0xff]⟩)])]
  here := []

theorem requirement_tiedDisk_is_first_greatest :
    (requirement tiedDisk (.ofRoot [])).result = .ok (some ⟨"1.20", .ofRoot ["go.mod"]⟩) ∧
      ∃ found, (manifests tiedDisk (.ofRoot [])).result = .ok found ∧
        IsStrongest tiedDisk found ⟨"1.20", .ofRoot ["go.mod"]⟩ ∧
        (requirement tiedDisk (.ofRoot [])).recordsAt .warning =
          (found.filterMap (complaint? tiedDisk)).map warning := by
  have h : (requirement tiedDisk (.ofRoot [])).result =
      .ok (some ⟨"1.20", .ofRoot ["go.mod"]⟩) := by cbv
  obtain ⟨found, hfound, -, hgreatest, hrecords, -⟩ := requirement_is_first_greatest h
  exact ⟨h, found, hfound, hgreatest _ rfl, hrecords⟩

end ToolchainChoice.Workspace
