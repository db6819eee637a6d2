import ToolchainChoice.Proofs.Config.Schema

/-!
# Settings are defaults overridden entry by entry

A document that is accepted sets what it gives and leaves the defaults for the rest. Eight entries are read,
each of them for itself, so a document with other entries besides, or in another order, gives the same
settings or is refused as well. Which of several things that are wrong is reported is not said here.
-/
namespace ToolchainChoice.Config

variable {store store' : Store} {data data' entries entries' : Entries} {key fallback : String}
variable {v w : Value} {settings : Settings} {text : Symbols} {directory : Option Symbols}

/-! ## One entry after another -/

/-- The settings are those that a document gives: every section can be looked into, and every entry is read
as the setting that it stands for. -/
structure Reads (store : Store) (data : Entries) (settings : Settings) : Prop where
  sections : ∀ key ∈ ["toolchain", "supported_range", "diagnostics"],
    WhereGiven data key (PassesForSection store)
  version : versionOf store data = .ok settings.version
  name : nameOf (entriesUnder store data "toolchain") "name" "Go" = .ok settings.toolchain.name
  key : nameOf (entriesUnder store data "toolchain") "key" "go" = .ok settings.toolchain.key
  manifest : nameOf (entriesUnder store data "toolchain") "manifest" "go.mod" =
    .ok settings.toolchain.manifest
  executable : nameOf (entriesUnder store data "toolchain") "executable" "go" = .ok settings.executable
  range : IsRangeUnder (entriesUnder store data "supported_range") settings.range
  directory : directoryOf (entriesUnder store data "diagnostics") = .ok settings.directory

theorem ofEntries_eq_ok_iff : Settings.ofEntries store data = .ok settings ↔ Reads store data settings := by
  simp only [Settings.ofEntries, except_bind_eq_ok_iff, sectionOf_eq_ok_iff, rangeOf_eq_ok_iff]
  constructor
  · rintro ⟨version, hversion, _, ⟨htoolchain, rfl⟩, name, hname, key, hkey, manifest, hmanifest,
      executable, hexecutable, _, ⟨hsupported, rfl⟩, range, hrange, _, ⟨hdiagnostics, rfl⟩, directory,
      hdirectory, hdone⟩
    obtain rfl := Except.ok.inj hdone
    refine ⟨?_, hversion, hname, hkey, hmanifest, hexecutable, hrange, hdirectory⟩
    simp [htoolchain, hsupported, hdiagnostics]
  · rintro ⟨hsections, hversion, hname, hkey, hmanifest, hexecutable, hrange, hdirectory⟩
    exact ⟨_, hversion, _, ⟨hsections _ (by decide), rfl⟩, _, hname, _, hkey, _, hmanifest, _,
      hexecutable, _, ⟨hsections _ (by decide), rfl⟩, _, hrange, _, ⟨hsections _ (by decide), rfl⟩, _,
      hdirectory, rfl⟩

/-! ## The defaults, overridden -/

/-- The entry has set this text: the value that is given is the text, or it is the default and none is
given. -/
inductive IsSetTo (entries : Entries) (key : String) (fallback : Symbols) : Symbols → Prop
  | given {text : Symbols} (given : Value.get? entries key = some (.ofSymbols text)) :
      IsSetTo entries key fallback text
  | default (missing : Value.get? entries key = none) : IsSetTo entries key fallback fallback

/-- The folder is the text that is given. There is none if the null value is given, or nothing. -/
inductive IsFolderSetTo (entries : Entries) : Option Symbols → Prop
  | given {text : Symbols} (given : Value.get? entries "directory" = some (.ofSymbols text)) :
      IsFolderSetTo entries (some text)
  | null (given : Value.get? entries "directory" = some .null) : IsFolderSetTo entries none
  | default (missing : Value.get? entries "directory" = none) : IsFolderSetTo entries none

/-- A name is set, and it is not empty. Of a name that is given this is checked; the default is not
checked, and need not be. -/
theorem isSetTo_of_nameOf (h : nameOf entries key fallback = .ok text) (hfallback : fallback ≠ "") :
    IsSetTo entries key fallback text ∧ text ≠ [] := by
  obtain ⟨hname, htext⟩ := nameOf_eq_ok_iff.mp h
  cases hv : Value.get? entries key with
  | none =>
    rw [hv] at htext
    rw [htext]
    exact ⟨.default hv, fun hempty => hfallback (Symbols.ofString_injective hempty)⟩
  | some v =>
    obtain ⟨given, hgiven, hne⟩ := hname v hv
    rw [hv, Option.bind_some, hgiven] at htext
    rw [htext]
    rw [Value.text?_eq_some_iff.mp hgiven] at hv
    exact ⟨.given hv, hne⟩

theorem isSetTo_of_boundUnder {bound : String} (h : boundUnder entries key fallback = .text bound) :
    IsSetTo entries key fallback bound := by
  unfold boundUnder at h
  cases hv : Value.get? entries key with
  | none =>
    rw [hv] at h
    rw [← Value.text.inj h]
    exact .default hv
  | some v =>
    rw [hv, Option.getD_some] at h
    refine .given ?_
    rw [hv, h, Value.ofSymbols_ofString]

theorem isFolderSetTo_of_directoryOf (h : directoryOf entries = .ok directory) :
    IsFolderSetTo entries directory := by
  obtain ⟨hgiven, rfl⟩ := directoryOf_eq_ok_iff.mp h
  cases hv : Value.get? entries "directory" with
  | none => exact .default hv
  | some v =>
    rcases hgiven v hv with rfl | ⟨given, htext⟩
    · exact .null hv
    · rw [Option.bind_some, htext]
      rw [Value.text?_eq_some_iff.mp htext] at hv
      exact .given hv

/-- What is set is what a document gives, or else what is set without a document. -/
structure Overrides (store : Store) (data : Entries) (settings : Settings) : Prop where
  version : settings.version = (Value.get? data "version").getD ({} : Settings).version
  name : IsSetTo (entriesUnder store data "toolchain") "name" ({} : Settings).toolchain.name
    settings.toolchain.name
  key : IsSetTo (entriesUnder store data "toolchain") "key" ({} : Settings).toolchain.key
    settings.toolchain.key
  manifest : IsSetTo (entriesUnder store data "toolchain") "manifest" ({} : Settings).toolchain.manifest
    settings.toolchain.manifest
  executable : IsSetTo (entriesUnder store data "toolchain") "executable" ({} : Settings).executable
    settings.executable
  min : IsSetTo (entriesUnder store data "supported_range") "min" ({} : Settings).range.min
    settings.range.min
  max : IsSetTo (entriesUnder store data "supported_range") "max" ({} : Settings).range.max
    settings.range.max
  directory : IsFolderSetTo (entriesUnder store data "diagnostics") settings.directory
  names_ne : ∀ name ∈ [settings.toolchain.name, settings.toolchain.key, settings.toolchain.manifest,
    settings.executable], name ≠ []
  range_in_order : ∃ lower upper, Version.majorMinorOf settings.range.min = .ok lower ∧
    Version.majorMinorOf settings.range.max = .ok upper ∧ lower ≤ upper

theorem Reads.overrides (h : Reads store data settings) : Overrides store data settings where
  version := (versionOf_eq_ok_iff.mp h.version).2
  name := (isSetTo_of_nameOf h.name (by decide)).1
  key := (isSetTo_of_nameOf h.key (by decide)).1
  manifest := (isSetTo_of_nameOf h.manifest (by decide)).1
  executable := (isSetTo_of_nameOf h.executable (by decide)).1
  min := isSetTo_of_boundUnder h.range.1
  max := isSetTo_of_boundUnder h.range.2.1
  directory := isFolderSetTo_of_directoryOf h.directory
  names_ne := by
    have hname := (isSetTo_of_nameOf h.name (by decide)).2
    have hkey := (isSetTo_of_nameOf h.key (by decide)).2
    have hmanifest := (isSetTo_of_nameOf h.manifest (by decide)).2
    have hexecutable := (isSetTo_of_nameOf h.executable (by decide)).2
    simp [hname, hkey, hmanifest, hexecutable]
  range_in_order :=
    ⟨_, _, settings.range.min_eq, settings.range.max_eq, settings.range.lower_le_upper⟩

/-! ## Documents that agree -/

/-- The same value, in two documents. Collections, and floats that are no numbers, are told apart within a
document by where they stand, which says nothing about what they are. -/
inductive SameValue : Value → Value → Prop
  | refl (v : Value) : SameValue v v
  | nan (m n : Nat) : SameValue (.nan m) (.nan n)
  | collection (q r : Ref) : SameValue (.collection q) (.collection r)

namespace SameValue

theorem symm (h : SameValue v w) : SameValue w v := by
  cases h with
  | refl => exact .refl v
  | nan m n => exact .nan n m
  | collection q r => exact .collection r q

theorem text?_eq (h : SameValue v w) : v.text? = w.text? := by
  cases h <;> rfl

/-- Neither a float that is no number nor a collection equals one. -/
theorem eq_of_equalsOne (h : SameValue v w) (hone : EqualsOne v) : v = w := by
  cases h with
  | refl => rfl
  | nan | collection => contradiction

end SameValue

/-- The entry has the same value in both, or is missing in both. -/
inductive SameEntry (entries entries' : Entries) (key : String) : Prop
  | given {v w : Value} (given : Value.get? entries key = some v)
      (given' : Value.get? entries' key = some w) (same : SameValue v w) : SameEntry entries entries' key
  | missing (missing : Value.get? entries key = none) (missing' : Value.get? entries' key = none) :
      SameEntry entries entries' key

namespace SameEntry

theorem symm (h : SameEntry entries entries' key) : SameEntry entries' entries key := by
  cases h with
  | given hv hw same => exact .given hw hv same.symm
  | missing hv hw => exact .missing hw hv

theorem nameOf_eq (h : SameEntry entries entries' key) :
    nameOf entries key fallback = nameOf entries' key fallback := by
  unfold nameOf
  cases h with
  | given hv hw same =>
    rw [hv, hw]
    dsimp only
    rw [same.text?_eq]
  | missing hv hw => rw [hv, hw]

theorem directoryOf_eq (h : SameEntry entries entries' "directory") :
    directoryOf entries = directoryOf entries' := by
  unfold directoryOf
  cases h with
  | given hv hw same =>
    rw [hv, hw]
    cases same <;> rfl
  | missing hv hw => rw [hv, hw]

theorem boundUnder_eq_text (h : SameEntry entries entries' key)
    {s : String} (hs : boundUnder entries key fallback = .text s) :
    boundUnder entries' key fallback = .text s := by
  unfold boundUnder at hs ⊢
  cases h with
  | given hv hw same =>
    rw [hv] at hs
    rw [hw]
    cases same with
    | refl => exact hs
    | nan | collection => contradiction
  | missing hv hw =>
    rw [hv] at hs
    rw [hw]
    exact hs

theorem versionOf_eq_ok (h : SameEntry data data' "version") (hv : versionOf store data = .ok v) :
    versionOf store' data' = .ok v := by
  obtain ⟨hone, rfl⟩ := versionOf_eq_ok_iff.mp hv
  have hsame : Value.get? data' "version" = Value.get? data "version" := by
    cases h with
    | given hv hw same => rw [hw, hv, same.eq_of_equalsOne (hone _ hv)]
    | missing hv hw => rw [hw, hv]
  refine versionOf_eq_ok_iff.mpr ⟨fun w hw => hone w (hsame ▸ hw), ?_⟩
  rw [hsame]

end SameEntry

/-- The entries that are read, each with the section that it stands in. -/
def sectionEntries : List (String × String) :=
  [("toolchain", "name"), ("toolchain", "key"), ("toolchain", "manifest"), ("toolchain", "executable"),
   ("supported_range", "min"), ("supported_range", "max"), ("diagnostics", "directory")]

/-- Two mappings agree on the version and on the entries of the sections, whatever else they hold and in
whatever order; and their sections can be looked into. -/
structure Agrees (store store' : Store) (data data' : Entries) : Prop where
  sections : ∀ key ∈ ["toolchain", "supported_range", "diagnostics"],
    WhereGiven data key (PassesForSection store) ∧ WhereGiven data' key (PassesForSection store')
  version : SameEntry data data' "version"
  entries : ∀ e ∈ sectionEntries,
    SameEntry (entriesUnder store data e.1) (entriesUnder store' data' e.1) e.2

namespace Agrees

theorem symm (h : Agrees store store' data data') : Agrees store' store data' data where
  sections key hkey := (h.sections key hkey).symm
  version := h.version.symm
  entries e he := (h.entries e he).symm

theorem reads (h : Agrees store store' data data') (hreads : Reads store data settings) :
    Reads store' data' settings where
  sections key hkey := (h.sections key hkey).2
  version := h.version.versionOf_eq_ok hreads.version
  name := (h.entries ("toolchain", "name") (by decide)).nameOf_eq ▸ hreads.name
  key := (h.entries ("toolchain", "key") (by decide)).nameOf_eq ▸ hreads.key
  manifest := (h.entries ("toolchain", "manifest") (by decide)).nameOf_eq ▸ hreads.manifest
  executable := (h.entries ("toolchain", "executable") (by decide)).nameOf_eq ▸ hreads.executable
  range := by
    obtain ⟨hmin, hmax, hforms⟩ := hreads.range
    exact ⟨(h.entries ("supported_range", "min") (by decide)).boundUnder_eq_text hmin,
      (h.entries ("supported_range", "max") (by decide)).boundUnder_eq_text hmax, hforms⟩
  directory := (h.entries ("diagnostics", "directory") (by decide)).directoryOf_eq ▸ hreads.directory

end Agrees

theorem ofDocument_eq_ok_iff {d : Document} (h : d.store.entries? d.root = some data) :
    Settings.ofDocument d = .ok settings ↔ Reads d.store data settings := by
  unfold Settings.ofDocument
  rw [h]
  exact ofEntries_eq_ok_iff

/-- **Overriding.** A document that is accepted overrides the defaults, entry by entry. Two mappings that
agree on the entries that are read give the same settings, or are both refused. -/
theorem settings_override_defaults :
    (∀ d settings, Settings.ofDocument d = .ok settings →
      ∃ data, d.store.entries? d.root = some data ∧ Overrides d.store data settings) ∧
    ∀ (d d' : Document) (data data' : Entries), d.store.entries? d.root = some data →
      d'.store.entries? d'.root = some data' → Agrees d.store d'.store data data' →
      ∀ settings, Settings.ofDocument d = .ok settings ↔ Settings.ofDocument d' = .ok settings := by
  constructor
  · intro d settings h
    cases hdata : d.store.entries? d.root with
    | none =>
      unfold Settings.ofDocument at h
      rw [hdata] at h
      contradiction
    | some data => exact ⟨data, rfl, ((ofDocument_eq_ok_iff hdata).mp h).overrides⟩
  · intro d d' data data' hdata hdata' hagrees settings
    rw [ofDocument_eq_ok_iff hdata, ofDocument_eq_ok_iff hdata']
    exact ⟨hagrees.reads, hagrees.symm.reads⟩

/-! ## A document in another order -/

/-- A name and a bound. -/
def namedDocument : Document := .ofJson (.object [
  ("toolchain", .object [("name", .string "Zig"), ("key", .string "zig")]),
  ("supported_range", .object [("max", .string "1.20")])])

/-- The same the other way round, with entries that have no meaning. -/
def reorderedDocument : Document := .ofJson (.object [
  ("notes", .array [.null]),
  ("supported_range", .object [("mean", .bool true), ("max", .string "1.20")]),
  ("toolchain", .object [("key", .string "zig"), ("version", .number "7"), ("name", .string "Zig")])])

/-- The settings of both. -/
def namedSettings : Settings where
  toolchain := { name := "Zig", key := "zig" }
  range := {
    min := "1.11", max := "1.20", lower := ⟨1, 11⟩, upper := ⟨1, 20⟩
    min_eq := rfl, max_eq := rfl, lower_le_upper := by decide }

/-- The entries of a document that is a mapping. -/
def rootEntries (d : Document) : Entries := (d.store.entries? d.root).getD []

theorem whereGiven_passes_of_isSome (h : Value.get? data key = some v)
    (hmapping : (store.entries? v).isSome) : WhereGiven data key (PassesForSection store) :=
  (whereGiven_iff_of_some h).mpr (.inr (Option.isSome_iff_exists.mp hmapping))

theorem agrees_reorderedDocument : Agrees namedDocument.store reorderedDocument.store
    (rootEntries namedDocument) (rootEntries reorderedDocument) where
  sections := by
    simp only [List.forall_mem_cons]
    exact ⟨⟨whereGiven_passes_of_isSome rfl rfl, whereGiven_passes_of_isSome rfl rfl⟩,
      ⟨whereGiven_passes_of_isSome rfl rfl, whereGiven_passes_of_isSome rfl rfl⟩,
      ⟨whereGiven_of_none rfl, whereGiven_of_none rfl⟩, List.forall_mem_nil _⟩
  version := .missing rfl rfl
  entries := by
    simp only [sectionEntries, List.forall_mem_cons]
    exact ⟨.given rfl rfl (.refl _), .given rfl rfl (.refl _), .missing rfl rfl, .missing rfl rfl,
      .missing rfl rfl, .given rfl rfl (.refl _), .missing rfl rfl, List.forall_mem_nil _⟩

theorem reorderedDocument_overrides_defaults :
    namedDocument.store.entries? namedDocument.root = some (rootEntries namedDocument) ∧
      reorderedDocument.store.entries? reorderedDocument.root = some (rootEntries reorderedDocument) ∧
      Agrees namedDocument.store reorderedDocument.store (rootEntries namedDocument)
        (rootEntries reorderedDocument) ∧
      Settings.ofDocument namedDocument = .ok namedSettings ∧
      Settings.ofDocument reorderedDocument = .ok namedSettings ∧
      Overrides reorderedDocument.store (rootEntries reorderedDocument) namedSettings := by
  obtain ⟨hoverrides, hagree⟩ := settings_override_defaults
  have hnamed : Settings.ofDocument namedDocument = .ok namedSettings := rfl
  have hreordered : Settings.ofDocument reorderedDocument = .ok namedSettings :=
    (hagree namedDocument reorderedDocument _ _ rfl rfl agrees_reorderedDocument namedSettings).mp hnamed
  obtain ⟨data, hdata, h⟩ := hoverrides reorderedDocument namedSettings hreordered
  have hroot : reorderedDocument.store.entries? reorderedDocument.root =
      some (rootEntries reorderedDocument) := rfl
  obtain rfl := Option.some.inj (hdata.symm.trans hroot)
  exact ⟨rfl, hroot, agrees_reorderedDocument, hnamed, hreordered, h⟩

end ToolchainChoice.Config
