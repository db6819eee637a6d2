import Mathlib.Data.List.TakeWhile
import ToolchainChoice.Config.File
import ToolchainChoice.Proofs.Files.RealPath
import ToolchainChoice.Proofs.Range.Bounds
import ToolchainChoice.Proofs.Text.Utf8
import ToolchainChoice.Proofs.Yaml.Entries
import ToolchainChoice.Proofs.Yaml.Floats

/-!
# A bound in a configuration file

A bound of the range has two numbers with a point between them, and so has a float. Without quotes it is
read as a float, which has lost the zeros at its end, and no float is accepted for a bound, whether zeros
were lost or not. In double quotes it is read as it is written, and accepted if the range is not reversed.
The numbers of a bound are those of a version, so they are compared as numbers and not as a float would be.
-/
namespace ToolchainChoice.Config

open Number (digitLimit digitsValue)
open SupportedRange (IsReadBound)
open Version (IsRun MajorMinor dotted)
open Yaml (IsKey IsLast IsWord Means Source isAllowed scalarTag)

variable {major minor : List Char} {ending : String} {v : Value} {store : Store}

/-! ## The file -/

/-- The two bounds of a range. -/
inductive Limit where
  | min
  | max
  deriving DecidableEq, Repr

namespace Limit

def key : Limit → String
  | .min => "min"
  | .max => "max"

/-- The bounds of the range in which only this one is given. -/
def bounds (text : String) : Limit → String × String
  | .min => (text, SupportedRange.defaultMax)
  | .max => (SupportedRange.defaultMin, text)

/-- The bound is in order with the other one, which is not given. -/
def Fits (m : MajorMinor) : Limit → Prop
  | .min => m ≤ SupportedRange.standard.upper
  | .max => SupportedRange.standard.lower ≤ m

instance (m : MajorMinor) : DecidablePred (Fits m)
  | .min => inferInstanceAs (Decidable (m ≤ SupportedRange.standard.upper))
  | .max => inferInstanceAs (Decidable (SupportedRange.standard.lower ≤ m))

end Limit

/-- The text of a configuration file that gives one bound. -/
def boundText (limit : Limit) (scalar ending : String) : String :=
  "supported_range:\n  " ++ limit.key ++ ": " ++ scalar ++ ending

/-- A file ends with its last line, or with the end of that line. -/
def IsEnding (ending : String) : Prop := ending = "" ∨ ending = "\n"

/-- Two numbers with a point between them. -/
def pointed (major minor : List Char) : String := String.ofList (dotted major [minor])

def inQuotes (text : String) : String := "\"" ++ text ++ "\""

/-- A text as a scalar. -/
def asScalar (quoted : Bool) (text : String) : String := if quoted then inQuotes text else text

/-! ## Its characters -/

/-- The character is allowed in a document and no carriage return. -/
def isPlainChar (c : Char) : Bool := isAllowed c && c != '\r'

theorem unifyLineEnds_eq_self {cs : List Char} (h : ∀ c ∈ cs, c ≠ '\r') :
    Files.unifyLineEnds cs = cs := by
  induction cs with
  | nil => rfl
  | cons c cs ih =>
    obtain ⟨hc, hcs⟩ := List.forall_mem_cons.mp h
    rw [Files.unifyLineEnds, ih hcs]
    · rintro _ rfl
      contradiction
    · exact hc

/-- A text with allowed characters and with line feeds as line ends is read as it is. -/
theorem ofParts_readParts {text : String} (h : text.toList.all isPlainChar = true) :
    Source.ofParts (Files.readParts text.toUTF8) = ⟨text.toList, none⟩ := by
  have hchars : ∀ c ∈ text.toList, isAllowed c = true ∧ c ≠ '\r' := by
    intro c hc
    have hplain := List.all_eq_true.mp h c hc
    simpa [isPlainChar] using hplain
  have hparts : Files.readParts text.toUTF8 = ⟨text.toList, true⟩ := by
    unfold Files.readParts Files.decodeText?
    rw [Text.Utf8.fault?_toUTF8, Text.Utf8.fromUTF8?_toUTF8]
    show Files.PartialText.mk (Files.unifyLineEnds text.toList) true = _
    rw [unifyLineEnds_eq_self fun c hc => (hchars c hc).2]
  rw [hparts]
  unfold Source.ofParts
  dsimp only
  rw [List.takeWhile_eq_self_iff.mpr fun c hc => (hchars c hc).1]
  simp

theorem isKey_of_check {w : List Char} (h : (w.all Yaml.isWordChar && w.head?.any Char.isAlphanum &&
    w.length.ble Yaml.keyLimit && Yaml.Tag.ofPlain w == .text) = true) : IsKey w := by
  simp only [Bool.and_eq_true] at h
  obtain ⟨⟨⟨hchars, hhead⟩, hshort⟩, htag⟩ := h
  have hword : IsWord w := by
    cases w with
    | nil => contradiction
    | cons c cs => exact ⟨List.all_eq_true.mp hchars, c, cs, rfl, hhead⟩
  exact ⟨hword, Nat.le_of_ble_eq_true hshort, eq_of_beq htag⟩

theorem isKey_section : IsKey "supported_range".toList := isKey_of_check (by decide +kernel)

theorem Limit.isKey (limit : Limit) : IsKey limit.key.toList := by
  cases limit with
  | min => exact isKey_of_check (by decide +kernel)
  | max => exact isKey_of_check (by decide +kernel)

theorem isWord_dotted (hmajor : IsRun major) (hminor : IsRun minor) : IsWord (dotted major [minor]) := by
  refine ⟨Yaml.of_mem_dotted (by decide) (by decide) hmajor hminor, ?_⟩
  obtain ⟨c, cs, hcs, hc⟩ := Yaml.exists_head_dotted hmajor minor
  refine ⟨c, cs, hcs, ?_⟩
  rw [Char.isAlphanum, hc, Bool.or_true]

theorem ofList_writtenWord (w : List Char) (quoted : Bool) :
    String.ofList (Yaml.Scanner.writtenWord quoted w) = asScalar quoted (String.ofList w) := by
  cases quoted with
  | false => rfl
  | true =>
    rw [← String.toList_inj]
    simp [Yaml.Scanner.writtenWord, asScalar, inQuotes]

/-- The characters of a file with a scalar that is a word, with or without quotes. -/
theorem toList_boundText (limit : Limit) (w : List Char) (quoted : Bool) (ending : String) :
    (boundText limit (asScalar quoted (String.ofList w)) ending).toList =
      Yaml.Scanner.twoLines "supported_range".toList limit.key.toList
        (Yaml.Scanner.writtenWord quoted w ++ ending.toList) 2 := by
  have hfirst : "supported_range:\n  ".toList =
      "supported_range".toList ++ ':' :: '\n' :: List.replicate 2 ' ' := by decide +kernel
  have hsecond : ": ".toList = [':', ' '] := by decide +kernel
  rw [← ofList_writtenWord]
  unfold boundText Yaml.Scanner.twoLines
  simp only [String.toList_append, hfirst, hsecond, String.toList_ofList, List.append_assoc,
    List.cons_append, List.nil_append]

theorem all_isPlainChar (hmajor : IsRun major) (hminor : IsRun minor) (hending : IsEnding ending)
    (limit : Limit) (quoted : Bool) :
    (boundText limit (asScalar quoted (pointed major minor)) ending).toList.all isPlainChar = true := by
  have hfirst : "supported_range:\n  ".toList.all isPlainChar = true := by decide +kernel
  have hsecond : ": ".toList.all isPlainChar = true := by decide +kernel
  have hquote : "\"".toList.all isPlainChar = true := by decide +kernel
  have hkey : limit.key.toList.all isPlainChar = true := by
    cases limit with
    | min => decide +kernel
    | max => decide +kernel
  have hbound : (pointed major minor).toList.all isPlainChar = true := by
    rw [pointed, String.toList_ofList]
    exact List.all_eq_true.mpr (Yaml.of_mem_dotted (by decide) (by decide) hmajor hminor)
  have hend : ending.toList.all isPlainChar = true := by
    rcases hending with rfl | rfl
    · decide +kernel
    · decide +kernel
  have hscalar : (asScalar quoted (pointed major minor)).toList.all isPlainChar = true := by
    cases quoted with
    | false => exact hbound
    | true =>
      show (inQuotes (pointed major minor)).toList.all isPlainChar = true
      unfold inQuotes
      rw [String.toList_append, String.toList_append, List.all_append, List.all_append, hquote, hbound]
      rfl
  unfold boundText
  simp only [String.toList_append, List.all_append, hfirst, hkey, hsecond, hscalar, hend, Bool.and_true]

theorem read_boundText (hmajor : IsRun major) (hminor : IsRun minor) (hending : IsEnding ending)
    (limit : Limit) (quoted : Bool)
    (hvalue : Means 5 (scalarTag (dotted major [minor]) (!quoted)) ((dotted major [minor]).map .char) v) :
    Yaml.read (.ofParts (Files.readParts
        (boundText limit (asScalar quoted (pointed major minor)) ending).toUTF8)) =
      .ok ⟨Yaml.nestedStore "supported_range" limit.key v, .collection 0⟩ := by
  have htail : IsLast ending.toList := by
    rcases hending with rfl | rfl
    · exact .inl (by decide +kernel)
    · exact .inr (by decide +kernel)
  have hread := Yaml.read_twoLines isKey_section limit.isKey (isWord_dotted hmajor hminor)
    (k := 2) (by decide) htail hvalue
  rw [String.ofList_toList, String.ofList_toList] at hread
  rw [ofParts_readParts (all_isPlainChar hmajor hminor hending limit quoted), pointed, toList_boundText]
  exact hread

/-! ## Its settings -/

/-- The settings of a document with nothing but one bound: what is not given is as it is without one. -/
theorem ofDocument_bound (limit : Limit) (v : Value) :
    Settings.ofDocument ⟨Yaml.nestedStore "supported_range" limit.key v, .collection 0⟩ =
      (rangeOf (Yaml.nestedStore "supported_range" limit.key v) [(.text limit.key, v)]).map
        fun range => { range := range } := by
  let data : Entries := [(.text "supported_range", .collection 1)]
  let store := Yaml.nestedStore "supported_range" limit.key v
  have hversion : versionOf store data = .ok (.int 1) := rfl
  have htoolchain : sectionOf store data "toolchain" = .ok [] := rfl
  have hrange : sectionOf store data "supported_range" = .ok [(.text limit.key, v)] := rfl
  have hdiagnostics : sectionOf store data "diagnostics" = .ok [] := rfl
  show Settings.ofEntries store data = _
  unfold Settings.ofEntries
  rw [hversion, htoolchain, hrange, hdiagnostics]
  show (rangeOf store [(.text limit.key, v)] >>= fun range =>
    (.ok { range := range } : Except Failure Settings)) = _
  cases rangeOf store [(.text limit.key, v)] with
  | error e => rfl
  | ok range => rfl

theorem ofContent_bound (hmajor : IsRun major) (hminor : IsRun minor) (hending : IsEnding ending)
    (limit : Limit) (quoted : Bool)
    (hvalue : Means 5 (scalarTag (dotted major [minor]) (!quoted)) ((dotted major [minor]).map .char) v) :
    Settings.ofContent (boundText limit (asScalar quoted (pointed major minor)) ending).toUTF8 =
      (rangeOf (Yaml.nestedStore "supported_range" limit.key v) [(.text limit.key, v)]).map
        fun range => { range := range } := by
  unfold Settings.ofContent
  rw [read_boundText hmajor hminor hending limit quoted hvalue, ← ofDocument_bound]
  rfl

/-! ## A float for a bound -/

theorem boundOf_of_no_text (limit : Limit) (htext : v.text? = none) {shown : String}
    (hshown : store.shownText v = .ok shown) (fallback : String) :
    boundOf store [(.text limit.key, v)] limit.key fallback = fail (.boundNotText limit.key shown) := by
  have hfound : Value.get? [(.text limit.key, v)] limit.key = some v := by
    cases limit with
    | min => rfl
    | max => rfl
  unfold boundOf
  rw [hfound]
  dsimp only
  rw [htext]
  show (store.shownText v >>= fun shown => fail (.boundNotText limit.key shown)) = _
  rw [hshown]
  rfl

/-- A value that is no text is no bound, and is shown for what it is. -/
theorem rangeOf_of_no_text (limit : Limit) (htext : v.text? = none) {shown : String}
    (hshown : store.shownText v = .ok shown) :
    rangeOf store [(.text limit.key, v)] = fail (.boundNotText limit.key shown) := by
  have hgiven := boundOf_of_no_text limit htext hshown
  cases limit with
  | min =>
    show (boundOf store [(.text Limit.min.key, v)] Limit.min.key _ >>= _) = _
    rw [hgiven]
    rfl
  | max =>
    show (Except.ok _ >>= fun _ => boundOf store [(.text Limit.max.key, v)] Limit.max.key _ >>= _) = _
    rw [hgiven]
    rfl

/-- A float is no text, and all floats can be shown. -/
theorem rangeOf_float (store : Store) (limit : Limit) (which : Nat) (x : Number.Binary64) :
    ∃ shown, rangeOf store [(.text limit.key, .ofFloat which x)] =
      fail (.boundNotText limit.key shown) := by
  unfold Value.ofFloat
  split
  · exact ⟨_, rangeOf_of_no_text limit rfl rfl⟩
  · exact ⟨_, rangeOf_of_no_text limit rfl rfl⟩

theorem means_float (hmajor : IsRun major) (hminor : IsRun minor) :
    Means 5 (scalarTag (dotted major [minor]) true) ((dotted major [minor]).map .char)
      (.ofFloat 5 (.ofLiteral false ⟨major, minor, 0⟩)) := by
  have htag : scalarTag (dotted major [minor]) true = .float := Yaml.ofPlain_dotted hmajor hminor
  rw [htag]
  refine ⟨rfl, rfl, ?_⟩
  show Yaml.floatValue 5 (Text.Symbol.separate _) = _
  rw [Text.Symbol.separate_chars, Yaml.floatValue_dotted hmajor hminor]

/-- Without quotes the bound is a float, whatever its numbers are, and no float is a bound. -/
theorem unquoted_refused (hmajor : IsRun major) (hminor : IsRun minor) (hending : IsEnding ending)
    (limit : Limit) :
    ∃ shown, Settings.ofContent (boundText limit (pointed major minor) ending).toUTF8 =
      .error (.configuration (.boundNotText limit.key shown)) := by
  have hcontent := ofContent_bound hmajor hminor hending limit false (means_float hmajor hminor)
  generalize Number.Binary64.ofLiteral false ⟨major, minor, 0⟩ = x at hcontent
  obtain ⟨shown, hrange⟩ :=
    rangeOf_float (Yaml.nestedStore "supported_range" limit.key (.ofFloat 5 x)) limit 5 x
  rw [hrange] at hcontent
  exact ⟨shown, hcontent⟩

/-! ## A text for a bound -/

theorem rangeOf_text (limit : Limit) (text : String) :
    rangeOf store [(.text limit.key, .text text)] =
      SupportedRange.ofValues store (.text (limit.bounds text).1) (.text (limit.bounds text).2) := by
  cases limit with
  | min => rfl
  | max => rfl

/-- The two bounds of a range in which one is given are read, and they are in order exactly if the given one
fits. -/
theorem bounds_read (hmajor : IsRun major) (hminor : IsRun minor)
    (hfit : major.length ≤ digitLimit ∧ minor.length ≤ digitLimit) (limit : Limit) :
    ∃ l u, IsReadBound (limit.bounds (pointed major minor)).1 l ∧
      IsReadBound (limit.bounds (pointed major minor)).2 u ∧
      (limit.Fits ⟨digitsValue major, digitsValue minor⟩ ↔ l ≤ u) := by
  have hgiven : IsReadBound (pointed major minor) ⟨digitsValue major, digitsValue minor⟩ :=
    ⟨major, minor, hmajor, hminor, .inl (String.toList_ofList), hfit.1, hfit.2, rfl⟩
  have hmin : IsReadBound SupportedRange.defaultMin ⟨1, 11⟩ :=
    ⟨['1'], ['1', '1'], by decide, by decide, .inl (by decide +kernel), by decide, by decide, rfl⟩
  have hmax : IsReadBound SupportedRange.defaultMax ⟨1, 21⟩ :=
    ⟨['1'], ['2', '1'], by decide, by decide, .inl (by decide +kernel), by decide, by decide, rfl⟩
  cases limit with
  | min => exact ⟨_, _, hgiven, hmax, Iff.rfl⟩
  | max => exact ⟨_, _, hmin, hgiven, Iff.rfl⟩

theorem quoted_content (hmajor : IsRun major) (hminor : IsRun minor) (hending : IsEnding ending)
    (limit : Limit) :
    Settings.ofContent (boundText limit (inQuotes (pointed major minor)) ending).toUTF8 =
      (SupportedRange.ofValues (Yaml.nestedStore "supported_range" limit.key (.text (pointed major minor)))
        (.text (limit.bounds (pointed major minor)).1) (.text (limit.bounds (pointed major minor)).2)).map
        fun range => { range := range } := by
  have hcontent := ofContent_bound hmajor hminor hending limit true (Yaml.means_text 5 _)
  rw [rangeOf_text] at hcontent
  exact hcontent

/-- In quotes the bound is the text between them, and the only other question is that of the order. -/
theorem quoted_accepted_or_reversed (hmajor : IsRun major) (hminor : IsRun minor)
    (hfit : major.length ≤ digitLimit ∧ minor.length ≤ digitLimit) (hending : IsEnding ending)
    (limit : Limit) :
    (limit.Fits ⟨digitsValue major, digitsValue minor⟩ →
      ∃ range : SupportedRange,
        Settings.ofContent (boundText limit (inQuotes (pointed major minor)) ending).toUTF8 =
          .ok { range := range } ∧
        (range.min, range.max) = limit.bounds (pointed major minor)) ∧
    (¬ limit.Fits ⟨digitsValue major, digitsValue minor⟩ →
      Settings.ofContent (boundText limit (inQuotes (pointed major minor)) ending).toUTF8 =
        .error (.configuration (.boundsReversed (limit.bounds (pointed major minor)).1
          (limit.bounds (pointed major minor)).2))) := by
  obtain ⟨l, u, hl, hu, hfits⟩ := bounds_read hmajor hminor hfit limit
  obtain ⟨haccepted, hreversed⟩ := SupportedRange.ofValues_of_readBounds
    (Yaml.nestedStore "supported_range" limit.key (.text (pointed major minor))) hl hu
  rw [quoted_content hmajor hminor hending limit, hfits]
  constructor
  · intro hle
    obtain ⟨range, hrange⟩ := haccepted hle
    obtain ⟨hmin, hmax, -, -⟩ := SupportedRange.ofValues_eq_ok_iff.mp hrange
    refine ⟨range, by rw [hrange]; rfl, ?_⟩
    rw [← Value.text.inj hmin, ← Value.text.inj hmax]
  · intro hnot
    rw [hreversed (MajorMinor.not_le.mp hnot)]
    rfl

/-! ## With and without quotes -/

theorem settingsAt_file {d : Files.Disk} {path : Files.Path} {content : ByteArray}
    (h : d.entryAt? path = .ok (some (.file content))) :
    settingsAt d path = Settings.ofContent content := by
  unfold settingsAt
  rw [h]

/-- **A bound in a file.** A file that gives one bound as two numbers with a point between them is refused if
the bound is not quoted, whatever the numbers are. With double quotes it is accepted exactly if the numbers
are in order with the other bound, which has its default; then the bound is the text as it is written. -/
theorem bound_in_file (limit : Limit) (hmajor : IsRun major) (hminor : IsRun minor)
    (hfit : major.length ≤ digitLimit ∧ minor.length ≤ digitLimit) (hending : IsEnding ending)
    (d : Files.Disk) (path : Files.Path) :
    (d.entryAt? path = .ok (some (.file (boundText limit (pointed major minor) ending).toUTF8)) →
      ∃ shown, settingsAt d path = .error (.configuration (.boundNotText limit.key shown))) ∧
    (d.entryAt? path =
        .ok (some (.file (boundText limit (inQuotes (pointed major minor)) ending).toUTF8)) →
      (limit.Fits ⟨digitsValue major, digitsValue minor⟩ →
        ∃ range : SupportedRange, settingsAt d path = .ok { range := range } ∧
          (range.min, range.max) = limit.bounds (pointed major minor)) ∧
      (¬ limit.Fits ⟨digitsValue major, digitsValue minor⟩ →
        settingsAt d path = .error (.configuration (.boundsReversed
          (limit.bounds (pointed major minor)).1 (limit.bounds (pointed major minor)).2)))) := by
  constructor
  · intro hplain
    rw [settingsAt_file hplain]
    exact unquoted_refused hmajor hminor hending limit
  · intro hquoted
    rw [settingsAt_file hquoted]
    exact quoted_accepted_or_reversed hmajor hminor hfit hending limit

/-- A folder with nothing but a configuration in it. -/
def fileDisk (content : ByteArray) : Files.Disk := ⟨.folder [(fileName, .file content)], []⟩

theorem entryAt?_fileDisk (content : ByteArray) :
    (fileDisk content).entryAt? (.ofRoot [fileName]) = .ok (some (.file content)) := by
  have hplace : Files.follow (fileDisk content).root true Files.linkLimit [fileName] [] =
      .ok (.entry [fileName] (.file content)) := by
    rw [Files.follow]
    rfl
  have hfollow : Files.follow (fileDisk content).root true Files.linkLimit [] [fileName] =
      .ok (.entry [fileName] (.file content)) := by
    rw [Files.follow]
    exact hplace
  exact Files.Disk.entryAt?_of_follow rfl (by decide) hfollow

/-- Without quotes `1.20` would be the float 1.2, and `1.9` is less as a version than it is as a float. -/
theorem bound_in_fileDisk :
    IsRun ['1'] ∧ IsRun ['2', '0'] ∧ IsRun ['9'] ∧
      (∃ shown, settingsAt (fileDisk (boundText .max "1.20" "\n").toUTF8) (.ofRoot [fileName]) =
        .error (.configuration (.boundNotText "max" shown))) ∧
      (∃ range : SupportedRange,
        settingsAt (fileDisk (boundText .max (inQuotes "1.20") "\n").toUTF8) (.ofRoot [fileName]) =
          .ok { range := range } ∧ (range.min, range.max) = ("1.11", "1.20")) ∧
      settingsAt (fileDisk (boundText .max (inQuotes "1.9") "").toUTF8) (.ofRoot [fileName]) =
        .error (.configuration (.boundsReversed "1.11" "1.9")) := by
  have hone : IsRun ['1'] := by decide
  have htwenty : IsRun ['2', '0'] := by decide
  have hnine : IsRun ['9'] := by decide
  have hfits : Limit.max.Fits ⟨1, 20⟩ := by decide
  have hreversed : ¬ Limit.max.Fits ⟨1, 9⟩ := by decide
  exact ⟨hone, htwenty, hnine,
    (bound_in_file .max hone htwenty (by decide) (.inr rfl) _ _).1 (entryAt?_fileDisk _),
    ((bound_in_file .max hone htwenty (by decide) (.inr rfl) _ _).2 (entryAt?_fileDisk _)).1 hfits,
    ((bound_in_file .max hone hnine (by decide) (.inl rfl) _ _).2 (entryAt?_fileDisk _)).2 hreversed⟩

end ToolchainChoice.Config
