import ToolchainChoice.Config.Settings
import ToolchainChoice.Proofs.Range.Bounds
import ToolchainChoice.Proofs.Results
import ToolchainChoice.Value.OfJson

/-!
# The schema of a configuration

Which documents are accepted as a configuration. Every entry has a condition of its own, so the order in
which they are looked at decides only what is reported of a document that breaks several. What is accepted
is more than what is meant: a version need only equal one, and a section that counts as nothing is passed
over whatever it is (`Slips`).
-/
namespace ToolchainChoice.Config

open Number (Binary64)

variable {store : Store} {data entries found : Entries} {key fallback : String} {v : Value}
variable {p q : Value → Prop} {range : SupportedRange} {name : Symbols} {directory : Option Symbols}

/-! ## Conditions on entries -/

/-- Where the key is given, its value is as asked. -/
def WhereGiven (entries : Entries) (key : String) (p : Value → Prop) : Prop :=
  ∀ v, Value.get? entries key = some v → p v

def IsText (v : Value) : Prop := ∃ s, v.text? = some s

/-- The value is a text that is not empty. -/
def IsName (v : Value) : Prop := ∃ s, v.text? = some s ∧ s ≠ ""

def IsMapping (store : Store) (v : Value) : Prop := ∃ entries, store.entries? v = some entries

/-- The values that equal the number one. -/
inductive EqualsOne : Value → Prop
  | int : EqualsOne (.int 1)
  | bool : EqualsOne (.bool true)
  | float {x : Binary64} (h : x.isInt 1 = true) : EqualsOne (.float x)

/-- What is accepted as a section. -/
def PassesForSection (store : Store) (v : Value) : Prop :=
  store.isEmpty v = true ∨ IsMapping store v

/-- The entries of a section that is a mapping; there are none otherwise. -/
def entriesUnder (store : Store) (data : Entries) (key : String) : Entries :=
  ((Value.get? data key).bind store.entries?).getD []

/-- The value that is given for a bound, or its default. -/
def boundUnder (entries : Entries) (key fallback : String) : Value :=
  (Value.get? entries key).getD (.text fallback)

theorem whereGiven_of_none (h : Value.get? entries key = none) : WhereGiven entries key p := by
  intro v hv
  rw [h] at hv
  contradiction

theorem whereGiven_iff_of_some (h : Value.get? entries key = some v) : WhereGiven entries key p ↔ p v := by
  constructor
  · intro hp
    exact hp v h
  · intro hp w hw
    obtain rfl := Option.some.inj (h.symm.trans hw)
    exact hp

theorem WhereGiven.mono (h : WhereGiven entries key p) (hpq : ∀ v, p v → q v) :
    WhereGiven entries key q :=
  fun v hv => hpq v (h v hv)

theorem isText_iff : IsText v ↔ (∃ s, v = .text s) ∨ ∃ symbols, v = .broken symbols := by
  unfold IsText
  cases v <;> simp [Value.text?]

theorem isOne_eq_true_iff : v.isOne = true ↔ EqualsOne v := by
  constructor
  · intro h
    cases v with
    | int n =>
      obtain rfl : n = 1 := by simpa [Value.isOne, Value.same, Value.integer?] using h
      exact .int
    | bool b =>
      cases b with
      | true => exact .bool
      | false => contradiction
    | float x => exact .float h
    | _ => contradiction
  · rintro (_ | _ | h)
    · rfl
    · rfl
    · exact h

/-! ## What each entry is read as -/

theorem versionOf_eq_ok_iff :
    versionOf store data = .ok v ↔
      WhereGiven data "version" EqualsOne ∧ v = (Value.get? data "version").getD (.int 1) := by
  unfold versionOf
  cases hv : Value.get? data "version" with
  | none => simp [whereGiven_of_none hv, eq_comm]
  | some w =>
    rw [whereGiven_iff_of_some hv, ← isOne_eq_true_iff]
    by_cases hone : w.isOne = true
    · simp [hone, eq_comm]
    · simp [hone, fail, except_bind_eq_ok_iff]

/-- A mapping that counts as nothing has no entries. -/
theorem entries?_of_isEmpty (h : store.isEmpty v = true) : (store.entries? v).getD [] = [] := by
  cases v with
  | collection r =>
    simp only [Store.isEmpty] at h
    simp only [Store.entries?]
    cases hr : store.get? r with
    | none => rfl
    | some c =>
      rw [hr] at h
      cases c with
      | map entries => exact List.isEmpty_iff.mp h
      | _ => rfl
  | _ => rfl

theorem sectionOf_eq_ok_iff :
    sectionOf store data key = .ok found ↔
      WhereGiven data key (PassesForSection store) ∧ found = entriesUnder store data key := by
  unfold sectionOf entriesUnder
  cases hv : Value.get? data key with
  | none => simp [whereGiven_of_none hv, eq_comm]
  | some w =>
    rw [whereGiven_iff_of_some hv, Option.bind_some]
    by_cases hnothing : store.isEmpty w = true
    · simp [PassesForSection, hnothing, entries?_of_isEmpty hnothing, eq_comm]
    · cases hmapping : store.entries? w with
      | none => simp [PassesForSection, IsMapping, hnothing, hmapping, fail]
      | some entries => simp [PassesForSection, IsMapping, hnothing, hmapping, eq_comm]

theorem nameOf_eq_ok_iff :
    nameOf entries key fallback = .ok name ↔
      WhereGiven entries key IsName ∧
        name = ((Value.get? entries key).bind Value.text?).getD fallback := by
  unfold nameOf
  cases hv : Value.get? entries key with
  | none => simp [whereGiven_of_none hv, eq_comm]
  | some w =>
    rw [whereGiven_iff_of_some hv, Option.bind_some]
    cases htext : w.text? with
    | none => simp [IsName, htext, fail]
    | some s =>
      by_cases hempty : s = []
      · simp [IsName, htext, hempty, fail]
      · simp [IsName, htext, hempty, eq_comm]

theorem boundOf_eq_ok_iff :
    boundOf store entries key fallback = .ok v ↔
      WhereGiven entries key IsText ∧ v = boundUnder entries key fallback := by
  unfold boundOf boundUnder
  cases hv : Value.get? entries key with
  | none => simp [whereGiven_of_none hv, eq_comm]
  | some w =>
    rw [whereGiven_iff_of_some hv]
    cases htext : w.text? with
    | none => simp [IsText, htext, fail, except_bind_eq_ok_iff]
    | some s => simp [IsText, htext, eq_comm]

theorem directoryOf_eq_ok_iff :
    directoryOf entries = .ok directory ↔
      WhereGiven entries "directory" (fun v => v = .null ∨ IsText v) ∧
        directory = (Value.get? entries "directory").bind Value.text? := by
  unfold directoryOf
  cases hv : Value.get? entries "directory" with
  | none => simp [whereGiven_of_none hv, eq_comm]
  | some w =>
    rw [whereGiven_iff_of_some hv, Option.bind_some]
    cases htext : w.text? with
    | none =>
      by_cases hnull : w = .null
      · simp [hnull, eq_comm]
      · simp [IsText, htext, hnull, fail]
    | some s =>
      have hnull : w ≠ .null := by
        rintro rfl
        contradiction
      simp [IsText, htext, hnull, eq_comm]

theorem whereGiven_isText_of_boundUnder {s : String} (h : boundUnder entries key fallback = .text s) :
    WhereGiven entries key IsText := by
  intro v hv
  rw [boundUnder, hv, Option.getD_some] at h
  exact ⟨s, by rw [h]; rfl⟩

theorem isText_boundUnder (h : WhereGiven entries key IsText) : IsText (boundUnder entries key fallback) := by
  unfold boundUnder
  cases hv : Value.get? entries key with
  | none => exact ⟨fallback, rfl⟩
  | some v => exact h v hv

/-- The range has what is given for the two bounds, or their defaults, as its bounds. So a bound that is
given is a text; that the two are in order is part of every range. -/
def IsRangeUnder (entries : Entries) (range : SupportedRange) : Prop :=
  boundUnder entries "min" SupportedRange.defaultMin = .text range.min ∧
    boundUnder entries "max" SupportedRange.defaultMax = .text range.max ∧
    SupportedRange.HasBoundForm range.min ∧ SupportedRange.HasBoundForm range.max

theorem rangeOf_eq_ok_iff : rangeOf store entries = .ok range ↔ IsRangeUnder entries range := by
  simp only [rangeOf, except_bind_eq_ok_iff, boundOf_eq_ok_iff, SupportedRange.ofValues_eq_ok_iff]
  constructor
  · rintro ⟨min, ⟨-, rfl⟩, max, ⟨-, rfl⟩, hrange⟩
    exact hrange
  · intro hrange
    exact ⟨_, ⟨whereGiven_isText_of_boundUnder hrange.1, rfl⟩, _,
      ⟨whereGiven_isText_of_boundUnder hrange.2.1, rfl⟩, hrange⟩

/-! ## The whole document -/

/-- The conditions on the entries of a configuration, for what counts as version one and as a section. -/
structure Schema (isVersion isSection : Value → Prop) (store : Store) (data : Entries) : Prop where
  version : WhereGiven data "version" isVersion
  sections : ∀ key ∈ ["toolchain", "supported_range", "diagnostics"], WhereGiven data key isSection
  names : ∀ key ∈ ["name", "key", "manifest", "executable"],
    WhereGiven (entriesUnder store data "toolchain") key IsName
  range : ∃ range, IsRangeUnder (entriesUnder store data "supported_range") range
  directory : WhereGiven (entriesUnder store data "diagnostics") "directory"
    fun v => v = .null ∨ IsText v

theorem exists_ofEntries_iff :
    (∃ settings, Settings.ofEntries store data = .ok settings) ↔
      Schema EqualsOne (PassesForSection store) store data := by
  simp only [Settings.ofEntries, except_bind_eq_ok_iff, versionOf_eq_ok_iff, sectionOf_eq_ok_iff,
    nameOf_eq_ok_iff, rangeOf_eq_ok_iff, directoryOf_eq_ok_iff, and_assoc, exists_and_left,
    exists_eq_left]
  constructor
  · rintro ⟨hversion, htoolchain, hname, hkey, hmanifest, hexecutable, hsupported, -, range, hrange,
      hdiagnostics, hdirectory, -⟩
    refine ⟨hversion, ?_, ?_, ⟨range, hrange⟩, hdirectory⟩
    · simp [htoolchain, hsupported, hdiagnostics]
    · simp [hname, hkey, hmanifest, hexecutable]
  · rintro ⟨hversion, hsections, hnames, ⟨range, hrange⟩, hdirectory⟩
    exact ⟨hversion, hsections _ (by decide), hnames _ (by decide), hnames _ (by decide),
      hnames _ (by decide), hnames _ (by decide), hsections _ (by decide), _, range, hrange,
      hsections _ (by decide), hdirectory, rfl⟩

theorem Schema.mono {isVersion isVersion' isSection isSection' : Value → Prop}
    (h : Schema isVersion isSection store data) (hversion : ∀ v, isVersion v → isVersion' v)
    (hsection : ∀ v, isSection v → isSection' v) : Schema isVersion' isSection' store data where
  version := h.version.mono hversion
  sections key hkey := (h.sections key hkey).mono hsection
  names := h.names
  range := h.range
  directory := h.directory

/-- What is meant as a section. -/
def IsSection (store : Store) (v : Value) : Prop := v = .null ∨ IsMapping store v

/-- The schema as it is meant: the version is the integer one, and a section is a mapping or null. -/
def MeetsSchema (store : Store) (data : Entries) : Prop :=
  Schema (· = .int 1) (IsSection store) store data

/-- The entries break the schema where that is not noticed: the version equals one and is not the integer,
or a section counts as nothing, though it is no mapping and not null. -/
inductive Slips (store : Store) (data : Entries) : Prop
  | version {v : Value} (given : Value.get? data "version" = some v) (one : EqualsOne v)
      (other : v ≠ .int 1)
  | skipped {key : String} {v : Value} (hkey : key ∈ ["toolchain", "supported_range", "diagnostics"])
      (given : Value.get? data key = some v) (nothing : store.isEmpty v = true)
      (other : ¬ IsSection store v)

theorem equalsOne_of_eq (h : v = .int 1) : EqualsOne v := h ▸ .int

theorem IsSection.passes (h : IsSection store v) : PassesForSection store v := by
  rcases h with rfl | hmapping
  · exact .inl rfl
  · exact .inr hmapping

/-- The schema is met by what is accepted, apart from the two slips. -/
theorem meetsSchema_iff :
    MeetsSchema store data ↔
      Schema EqualsOne (PassesForSection store) store data ∧ ¬ Slips store data := by
  constructor
  · intro h
    refine ⟨h.mono (fun _ => equalsOne_of_eq) fun _ => IsSection.passes, ?_⟩
    rintro (⟨given, -, other⟩ | ⟨hkey, given, -, other⟩)
    · exact other (h.version _ given)
    · exact other (h.sections _ hkey _ given)
  · rintro ⟨h, hslips⟩
    refine ⟨?_, ?_, h.names, h.range, h.directory⟩
    · intro v given
      by_cases heq : v = .int 1
      · exact heq
      · exact absurd (.version given (h.version v given) heq) hslips
    · intro key hkey v given
      by_cases hsection : IsSection store v
      · exact hsection
      · rcases h.sections key hkey v given with nothing | hmapping
        · exact absurd (.skipped hkey given nothing hsection) hslips
        · exact .inr hmapping

/-- The document is a configuration by the schema as it is meant. -/
def Conforms (d : Document) : Prop :=
  ∃ data, d.store.entries? d.root = some data ∧ MeetsSchema d.store data

/-- **Acceptance.** A document is accepted as a configuration exactly if it is a mapping whose entries
meet the conditions of the schema with a version that equals one and with sections that are mappings or
count as nothing. The documents that conform to the schema as it is meant are exactly those that are
accepted without a slip. -/
theorem settings_accepted_iff (d : Document) :
    ((∃ settings, Settings.ofDocument d = .ok settings) ↔
        ∃ data, d.store.entries? d.root = some data ∧
          Schema EqualsOne (PassesForSection d.store) d.store data) ∧
      (Conforms d ↔
        (∃ settings, Settings.ofDocument d = .ok settings) ∧
          ∀ data, d.store.entries? d.root = some data → ¬ Slips d.store data) := by
  unfold Conforms Settings.ofDocument
  cases d.store.entries? d.root with
  | none => simp [fail]
  | some data => simp [exists_ofEntries_iff, meetsSchema_iff]

def truthVersion : Document := .ofJson (.object [("version", .bool true)])

def listToolchain : Document := .ofJson (.object [("toolchain", .array [])])

/-- Both documents are accepted, and neither conforms to the schema. -/
theorem settings_that_slip :
    Settings.ofDocument truthVersion = .ok { version := .bool true } ∧ ¬ Conforms truthVersion ∧
      Settings.ofDocument listToolchain = .ok {} ∧ ¬ Conforms listToolchain := by
  refine ⟨rfl, ?_, rfl, ?_⟩
  · rintro ⟨data, hdata, h⟩
    obtain rfl := Option.some.inj hdata
    have hone : Value.bool true = .int 1 := h.version _ rfl
    contradiction
  · rintro ⟨data, hdata, h⟩
    obtain rfl := Option.some.inj hdata
    rcases h.sections "toolchain" (by decide) _ rfl with hnull | ⟨entries, hentries⟩
    · contradiction
    · contradiction

end ToolchainChoice.Config
