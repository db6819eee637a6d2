import ToolchainChoice.Config.File
import ToolchainChoice.Proofs.Config.Schema
import ToolchainChoice.Proofs.Value.Shown
import ToolchainChoice.Proofs.Yaml.Reading

/-!
# How reading a configuration fails

Most of what can be wrong with a configuration is reported as a problem of the configuration. Some of it is
not: a path that leads to no file, a text that cannot be read for another reason than a fault of its syntax,
a value that cannot be shown in the message about it, and a bound that has the form of one and is no version.
These failures escape, and there are no others.
-/
namespace ToolchainChoice.Config

open SupportedRange (HasBoundForm IsReadBound Unread)
open Version (MajorMinor)

variable {store : Store} {data entries : Entries} {key fallback : String} {e : Failure} {v : Value}

/-- The failure is a problem of the configuration, and is reported as such. -/
def IsReported (e : Failure) : Prop := ∃ problem, e = .configuration problem

theorem isReported_of_fail {α : Type} {problem : ConfigProblem}
    (h : (fail problem : Except Failure α) = .error e) : IsReported e :=
  ⟨problem, (Except.error.inj h).symm⟩

/-! ## Steps whose failures are all reported -/

theorem isReported_of_sectionOf (h : sectionOf store data key = .error e) : IsReported e := by
  unfold sectionOf at h
  split at h
  · contradiction
  · split at h
    · contradiction
    · split at h
      · contradiction
      · exact isReported_of_fail h

theorem isReported_of_nameOf (h : nameOf entries key fallback = .error e) : IsReported e := by
  unfold nameOf at h
  split at h
  · contradiction
  · split at h
    · split at h
      · exact isReported_of_fail h
      · contradiction
    · exact isReported_of_fail h

theorem isReported_of_directoryOf (h : directoryOf entries = .error e) : IsReported e := by
  unfold directoryOf at h
  split at h
  · contradiction
  · contradiction
  · split at h
    · contradiction
    · exact isReported_of_fail h

/-! ## Steps with failures that escape -/

/-- A message about a value fails where the value cannot be shown. -/
theorem fail_shown_eq_error_iff {α β : Type} {shown : Except Failure β}
    {problem : β → ConfigProblem} (h : ¬ IsReported e) :
    (do fail (problem (← shown)) : Except Failure α) = .error e ↔ shown = .error e := by
  rw [except_bind_eq_error_iff]
  constructor
  · rintro (hshown | ⟨text, -, hfail⟩)
    · exact hshown
    · exact absurd (isReported_of_fail hfail) h
  · exact .inl

theorem versionOf_eq_error_iff (h : ¬ IsReported e) :
    versionOf store data = .error e ↔
      ∃ v, Value.get? data "version" = some v ∧ ¬ EqualsOne v ∧ store.plainText v = .error e := by
  unfold versionOf
  cases hv : Value.get? data "version" with
  | none => simp
  | some w =>
    by_cases hone : w.isOne = true
    · simp [hone, ← isOne_eq_true_iff]
    · simp [hone, ← isOne_eq_true_iff, fail_shown_eq_error_iff h]

theorem boundOf_eq_error_iff (h : ¬ IsReported e) :
    boundOf store entries key fallback = .error e ↔
      ∃ v, Value.get? entries key = some v ∧ ¬ IsText v ∧ store.shownText v = .error e := by
  unfold boundOf
  cases hv : Value.get? entries key with
  | none => simp
  | some w =>
    cases htext : w.text? with
    | some s => simp [IsText, htext]
    | none => simp [IsText, htext, fail_shown_eq_error_iff h]

/-- Why two texts that pass for bounds by their form make no range, where this is not a matter of the
configuration: one of them cannot be read. -/
inductive EitherUnread (min max : String) (e : Failure) : Prop
  | min (h : Unread min e) (hmax : HasBoundForm max)
  | max {l : MajorMinor} (hmin : IsReadBound min l) (h : Unread max e)

theorem isReported_of_boundOf (hv : IsText v) (h : SupportedRange.boundOf store v = .error e) :
    IsReported e := by
  rcases isText_iff.mp hv with ⟨s, rfl⟩ | ⟨symbols, rfl⟩
  · by_cases hform : HasBoundForm s
    · rw [SupportedRange.boundOf_of_hasBoundForm store hform] at h
      contradiction
    · rw [SupportedRange.boundOf_of_not_hasBoundForm store hform] at h
      exact ⟨_, (Except.error.inj h).symm⟩
  · rw [SupportedRange.boundOf_broken] at h
    exact ⟨_, (Except.error.inj h).symm⟩

theorem eitherUnread_of_refused {min max : String} (h : ¬ IsReported e)
    (hrefused : SupportedRange.Refused min max e) : EitherUnread min max e := by
  cases hrefused with
  | minUnread hmin hmax => exact .min hmin hmax
  | maxUnread hmin hmax => exact .max hmin hmax
  | minForm | maxForm | reversed => exact absurd ⟨_, rfl⟩ h

theorem ofValues_eq_error_iff_eitherUnread {a b : Value} (h : ¬ IsReported e) (ha : IsText a)
    (hb : IsText b) :
    SupportedRange.ofValues store a b = .error e ↔
      ∃ min max, a = .text min ∧ b = .text max ∧ EitherUnread min max e := by
  constructor
  · intro hrange
    cases hmin : SupportedRange.boundOf store a with
    | error e' =>
      simp only [SupportedRange.ofValues, hmin] at hrange
      obtain rfl := Except.error.inj hrange
      exact absurd (isReported_of_boundOf ha hmin) h
    | ok min =>
      cases hmax : SupportedRange.boundOf store b with
      | error e' =>
        simp only [SupportedRange.ofValues, hmin, hmax] at hrange
        obtain rfl := Except.error.inj hrange
        exact absurd (isReported_of_boundOf hb hmax) h
      | ok max =>
        obtain ⟨rfl, -⟩ := SupportedRange.boundOf_eq_ok_iff.mp hmin
        obtain ⟨rfl, -⟩ := SupportedRange.boundOf_eq_ok_iff.mp hmax
        have hrefused := SupportedRange.ofValues_eq_error_iff.mp hrange
        exact ⟨min, max, rfl, rfl, eitherUnread_of_refused h hrefused⟩
  · rintro ⟨min, max, rfl, rfl, hunread⟩
    rw [SupportedRange.ofValues_eq_error_iff]
    cases hunread with
    | min hmin hmax => exact .minUnread hmin hmax
    | max hmin hmax => exact .maxUnread hmin hmax

/-- The failures of a range that are no problem of the configuration. The bounds are looked at in their
order, and read only after both are known to be texts. -/
inductive RangeEscapes (store : Store) (entries : Entries) : Failure → Prop
  | minShown {v : Value} {e : Failure} (given : Value.get? entries "min" = some v) (other : ¬ IsText v)
      (h : store.shownText v = .error e) : RangeEscapes store entries e
  | maxShown {v : Value} {e : Failure} (hmin : WhereGiven entries "min" IsText)
      (given : Value.get? entries "max" = some v) (other : ¬ IsText v)
      (h : store.shownText v = .error e) : RangeEscapes store entries e
  | unread {min max : String} {e : Failure}
      (hmin : boundUnder entries "min" SupportedRange.defaultMin = .text min)
      (hmax : boundUnder entries "max" SupportedRange.defaultMax = .text max)
      (h : EitherUnread min max e) : RangeEscapes store entries e

theorem rangeOf_eq_error_iff (h : ¬ IsReported e) :
    rangeOf store entries = .error e ↔ RangeEscapes store entries e := by
  simp only [rangeOf, except_bind_eq_error_iff, boundOf_eq_error_iff h, boundOf_eq_ok_iff]
  constructor
  · rintro (⟨v, given, other, hv⟩ | ⟨min, ⟨hmin, rfl⟩, ⟨v, given, other, hv⟩ | ⟨max, ⟨hmax, rfl⟩, hrange⟩⟩)
    · exact .minShown given other hv
    · exact .maxShown hmin given other hv
    · obtain ⟨min, max, hmin', hmax', hunread⟩ :=
        (ofValues_eq_error_iff_eitherUnread h (isText_boundUnder hmin) (isText_boundUnder hmax)).mp hrange
      exact .unread hmin' hmax' hunread
  · rintro (⟨given, other, hv⟩ | ⟨hmin, given, other, hv⟩ | ⟨hmin, hmax, hunread⟩)
    · exact .inl ⟨_, given, other, hv⟩
    · exact .inr ⟨_, ⟨hmin, rfl⟩, .inl ⟨_, given, other, hv⟩⟩
    · have hminText := whereGiven_isText_of_boundUnder hmin
      have hmaxText := whereGiven_isText_of_boundUnder hmax
      refine .inr ⟨_, ⟨hminText, rfl⟩, .inr ⟨_, ⟨hmaxText, rfl⟩, ?_⟩⟩
      exact (ofValues_eq_error_iff_eitherUnread h (isText_boundUnder hminText)
        (isText_boundUnder hmaxText)).mpr ⟨_, _, hmin, hmax, hunread⟩

/-! ## The whole document -/

/-- The failures of a document that are no problem of the configuration. What stands behind the entry that
fails does not matter, and what stands before it is in order. -/
inductive DocumentEscapes (store : Store) (data : Entries) : Failure → Prop
  | version {v : Value} {e : Failure} (given : Value.get? data "version" = some v)
      (other : ¬ EqualsOne v) (h : store.plainText v = .error e) : DocumentEscapes store data e
  | range {e : Failure} (version : WhereGiven data "version" EqualsOne)
      (sections : ∀ key ∈ ["toolchain", "supported_range"], WhereGiven data key (PassesForSection store))
      (names : ∀ key ∈ ["name", "key", "manifest", "executable"],
        WhereGiven (entriesUnder store data "toolchain") key IsName)
      (h : RangeEscapes store (entriesUnder store data "supported_range") e) :
      DocumentEscapes store data e

theorem ofEntries_eq_error_iff (h : ¬ IsReported e) :
    Settings.ofEntries store data = .error e ↔ DocumentEscapes store data e := by
  have hsection : ∀ data key, sectionOf store data key ≠ .error e := fun _ _ herror =>
    h (isReported_of_sectionOf herror)
  have hname : ∀ entries key fallback, nameOf entries key fallback ≠ .error e := fun _ _ _ herror =>
    h (isReported_of_nameOf herror)
  have hdirectory : ∀ entries, directoryOf entries ≠ .error e := fun _ herror =>
    h (isReported_of_directoryOf herror)
  have hdone : ∀ settings : Settings, (pure settings : Except Failure Settings) ≠ .error e := by
    intro settings hpure
    contradiction
  simp only [Settings.ofEntries, except_bind_eq_error_iff, versionOf_eq_error_iff h,
    rangeOf_eq_error_iff h, hsection, hname, hdirectory, hdone, versionOf_eq_ok_iff,
    sectionOf_eq_ok_iff, nameOf_eq_ok_iff, false_or, and_false, exists_false, or_false, and_assoc,
    exists_and_left, exists_eq_left]
  constructor
  · rintro (⟨v, given, other, hv⟩ | ⟨hversion, htoolchain, hname, hkey, hmanifest, hexecutable, hsupported,
      hrange⟩)
    · exact .version given other hv
    · refine .range hversion ?_ ?_ hrange
      · simp [htoolchain, hsupported]
      · simp [hname, hkey, hmanifest, hexecutable]
  · rintro (⟨given, other, hv⟩ | ⟨hversion, hsections, hnames, hrange⟩)
    · exact .inl ⟨_, given, other, hv⟩
    · exact .inr ⟨hversion, hsections _ (by decide), hnames _ (by decide), hnames _ (by decide),
        hnames _ (by decide), hnames _ (by decide), hsections _ (by decide), hrange⟩

/-! ## The file -/

/-- The failures of the content of a file that are no problem of the configuration. -/
inductive ContentEscapes (content : ByteArray) : Failure → Prop
  | unreadable {e : Failure}
      (h : Yaml.read (.ofParts (Files.readParts content)) = .error (.failure e)) :
      ContentEscapes content e
  | document {d : Document} {data : Entries} {e : Failure}
      (hread : Yaml.read (.ofParts (Files.readParts content)) = .ok d)
      (hdata : d.store.entries? d.root = some data) (h : DocumentEscapes d.store data e) :
      ContentEscapes content e

/-- The failures of what stands at the path of a configuration that are no problem of the configuration. -/
inductive Escapes (entry : Files.Entry) : Failure → Prop
  | noFile (h : ∀ content, entry ≠ .file content) : Escapes entry .isDirectory
  | content {content : ByteArray} {e : Failure} (file : entry = .file content)
      (h : ContentEscapes content e) : Escapes entry e

/-- The kinds of the failures that escape. -/
inductive IsEscapeKind : Failure → Prop
  | isDirectory : IsEscapeKind .isDirectory
  | reading {e : Failure} (h : Yaml.IsReadingFailure e) : IsEscapeKind e
  | showing {e : Failure} (h : IsShowingFailure e) : IsEscapeKind e
  | invalidVersion (shown : String) : IsEscapeKind (.invalidVersion shown)

theorem isEscapeKind_of_unread {text : String} (h : Unread text e) : IsEscapeKind e := by
  cases h with
  | foreign => exact .invalidVersion _
  | overlong => exact .showing .numberTooLong

theorem RangeEscapes.kind (h : RangeEscapes store entries e) : IsEscapeKind e := by
  cases h with
  | minShown _ _ h | maxShown _ _ _ h => exact .showing (Store.shownText_eq_error h)
  | unread _ _ h =>
    cases h with
    | min h | max _ h => exact isEscapeKind_of_unread h

theorem DocumentEscapes.kind (h : DocumentEscapes store data e) : IsEscapeKind e := by
  cases h with
  | version _ _ h => exact .showing (Store.plainText_eq_error h)
  | range _ _ _ h => exact h.kind

theorem Escapes.kind {entry : Files.Entry} (h : Escapes entry e) : IsEscapeKind e := by
  cases h with
  | noFile => exact .isDirectory
  | content _ h =>
    cases h with
    | unreadable h => exact .reading (Yaml.isReadingFailure_of_read h)
    | document _ _ h => exact h.kind

/-- None of these kinds is that of a problem of the configuration. -/
theorem IsEscapeKind.not_isReported (h : IsEscapeKind e) : ¬ IsReported e := by
  rintro ⟨problem, rfl⟩
  cases h with
  | reading h | showing h => contradiction

theorem IsEscapeKind.ne_interrupted (h : IsEscapeKind e) : e ≠ .interrupted := by
  rintro rfl
  cases h with
  | reading h | showing h => contradiction

theorem ofDocument_eq_error_iff {d : Document} (h : ¬ IsReported e) :
    Settings.ofDocument d = .error e ↔
      ∃ data, d.store.entries? d.root = some data ∧ DocumentEscapes d.store data e := by
  unfold Settings.ofDocument
  cases d.store.entries? d.root with
  | none =>
    simp only [reduceCtorEq, false_and, exists_false, iff_false]
    exact fun hfail => h (isReported_of_fail hfail)
  | some data => simp [ofEntries_eq_error_iff h]

theorem ofContent_eq_error_iff {content : ByteArray} (h : ¬ IsReported e) :
    Settings.ofContent content = .error e ↔ ContentEscapes content e := by
  constructor
  · intro hcontent
    unfold Settings.ofContent at hcontent
    split at hcontent
    · rename_i fault hread
      obtain rfl := Except.error.inj hcontent
      cases fault with
      | failure f => exact .unreadable hread
      | syntaxFault | unfinished => exact absurd ⟨_, rfl⟩ h
    · rename_i d hread
      split at hcontent
      · exact absurd (isReported_of_fail hcontent) h
      · obtain ⟨data, hdata, hescapes⟩ := (ofDocument_eq_error_iff h).mp hcontent
        exact .document hread hdata hescapes
  · intro hescapes
    unfold Settings.ofContent
    cases hescapes with
    | unreadable hread => rw [hread]; rfl
    | @document d data _ hread hdata hescapes =>
      have hroot : d.root ≠ .null := by
        intro hnull
        rw [hnull] at hdata
        contradiction
      rw [hread]
      dsimp only
      rw [if_neg hroot]
      exact (ofDocument_eq_error_iff h).mpr ⟨data, hdata, hescapes⟩

/-- A failure to read what stands at the path of a configuration is no problem of the configuration exactly
if it is one of those that escape. -/
theorem settingsAt_eq_error_iff {d : Files.Disk} {path : Files.Path} {entry : Files.Entry}
    (hentry : d.entryAt? path = .ok (some entry)) :
    settingsAt d path = .error e ∧ ¬ IsReported e ↔ Escapes entry e := by
  unfold settingsAt
  rw [hentry]
  cases entry with
  | file content =>
    constructor
    · rintro ⟨hcontent, h⟩
      exact .content rfl ((ofContent_eq_error_iff h).mp hcontent)
    · intro hescapes
      have h := hescapes.kind.not_isReported
      refine ⟨?_, h⟩
      cases hescapes with
      | noFile hfile => exact absurd rfl (hfile content)
      | content file hescapes =>
        obtain rfl := Files.Entry.file.inj file
        exact (ofContent_eq_error_iff h).mpr hescapes
  | folder | link =>
    constructor
    · rintro ⟨hfolder, -⟩
      obtain rfl := Except.error.inj hfolder
      exact .noFile nofun
    · intro hescapes
      refine ⟨?_, hescapes.kind.not_isReported⟩
      cases hescapes with
      | noFile => rfl
      | content file => contradiction

end ToolchainChoice.Config
