import Mathlib.Data.List.TakeWhile
import ToolchainChoice.Proofs.Number.Digits
import ToolchainChoice.Proofs.Version.DottedNumbers
import ToolchainChoice.Proofs.Version.Texts

/-!
# Versions under which toolchains are released

Two or three numbers with points between them, and perhaps the mark of an unfinished version with its
number. Such a text is a version, and reading it gives back the numbers and the mark. Only the length of a
number can keep it from being read, so a `Release`, which has no long number, always is.
-/
namespace ToolchainChoice.Version

open Number (digitLimit digitsValue)

inductive Mark where
  | beta
  | candidate
  deriving DecidableEq, Repr

def Mark.letters : Mark → List Char
  | .beta => "beta".toList
  | .candidate => "rc".toList

def Mark.tag : Mark → PreTag
  | .beta => .beta
  | .candidate => .candidate

/-- The mark and its number, or nothing. -/
def markChars : Option (Mark × List Char) → List Char
  | none => []
  | some (mark, number) => mark.letters ++ number

/-- The pieces of such a text. It is left open which characters the numbers consist of. -/
structure ReleaseForm where
  major : List Char
  minor : List Char
  patch : Option (List Char)
  mark : Option (Mark × List Char)

namespace ReleaseForm

variable {f : ReleaseForm} {ds : List Char}

/-- All the numbers, in the order of the text. -/
def numbers (f : ReleaseForm) : List (List Char) :=
  f.major :: f.minor :: (f.patch.toList ++ (f.mark.map Prod.snd).toList)

def chars (f : ReleaseForm) : List Char := dotted f.major (f.minor :: f.patch.toList) ++ markChars f.mark

/-- The version as written. -/
def written (f : ReleaseForm) : Written where
  epoch := []
  major := f.major
  more := f.minor :: f.patch.toList
  pre := f.mark.map fun (mark, number) => (mark.tag, number)

theorem forall_mem_numbers_iff {p : List Char → Prop} :
    (∀ ds ∈ f.numbers, p ds) ↔
      p f.major ∧ p f.minor ∧ (∀ ds ∈ f.patch, p ds) ∧ ∀ marked ∈ f.mark, p marked.2 := by
  obtain ⟨major, minor, patch, mark⟩ := f
  cases patch <;> cases mark <;> simp [numbers]

theorem numbers_written (f : ReleaseForm) : f.written.numbers = [] :: f.numbers := by
  obtain ⟨major, minor, patch, mark⟩ := f
  cases patch <;> cases mark <;> rfl

theorem chars_eq (f : ReleaseForm) :
    f.chars = f.major ++ '.' :: f.minor ++ f.patch.toList.flatMap ('.' :: ·) ++ markChars f.mark := by
  simp [chars, dotted]

theorem subset_chars (h : ds ∈ f.numbers) : ds ⊆ f.chars := by
  have hall : ∀ ds ∈ f.numbers, ds ⊆ f.chars := by
    rw [forall_mem_numbers_iff, chars_eq]
    refine ⟨?_, ?_, ?_, ?_⟩
    · intro c hc
      simp [hc]
    · intro c hc
      simp [hc]
    · intro patch hpatch c hc
      simp [Option.mem_def.mp hpatch, hc]
    · intro marked hmarked c hc
      simp [Option.mem_def.mp hmarked, markChars, hc]
  exact hall ds h

end ReleaseForm

namespace Written

variable {ds : List Char}

/-! ## Reading the mark -/

theorem isPlain_of_mem_letters (mark : Mark) : ∀ c ∈ mark.letters, IsPlain c := by
  have hplain : (mark.letters.all fun c => !Text.isBlank c && c.toLower == c) = true := by
    cases mark <;> decide
  intro c hc
  have hboth := List.all_eq_true.mp hplain c hc
  rw [Bool.and_eq_true, Bool.not_eq_true', beq_iff_eq] at hboth
  exact ⟨hboth.1, hboth.2⟩

theorem digits_skipSeparator (h : IsRun ds) : digits (skipSeparator ds) = (ds, []) := by
  obtain ⟨hne, hdigits⟩ := h
  obtain ⟨c, cs, rfl⟩ := List.exists_cons_of_ne_nil hne
  have hsep : isSeparator c = false := by
    simpa using of_isDigit (p := fun c => !isSeparator c) (by decide) (hdigits c List.mem_cons_self)
  have hskip : skipSeparator (c :: cs) = c :: cs := by simp [skipSeparator, hsep]
  rw [hskip, digits, List.takeWhile_eq_self_iff.mpr hdigits, List.dropWhile_eq_nil_iff.mpr hdigits]

theorem preRelease_letters (mark : Mark) (h : IsRun ds) :
    preRelease (mark.letters ++ ds) = (some (mark.tag, ds), []) := by
  have htagged : tagged preSpellings (mark.letters ++ ds) =
      some (mark.tag, digits (skipSeparator ds)) := by
    cases mark <;> rfl
  rw [preRelease, htagged, digits_skipSeparator h]

/-- Marks begin with a letter, which continues no number. -/
theorem release_letters (mark : Mark) (ds run : List Char) :
    release run (mark.letters ++ ds) = ([run], mark.letters ++ ds) := by
  cases mark with
  | beta => simp [Mark.letters, release]
  | candidate => simp [Mark.letters, release]

theorem endsRelease_letters (mark : Mark) (h : IsRun ds) :
    EndsRelease (mark.letters ++ ds) (some (mark.tag, ds)) where
  plain := List.forall_mem_append.mpr
    ⟨isPlain_of_mem_letters mark, fun c hc => isPlain_of_isDigit (h.2 c hc)⟩
  mark := by
    intro hmem
    rcases List.mem_append.mp hmem with hmem | hmem
    · cases mark <;> exact absurd hmem (by decide)
    · exact absurd (h.2 '!' hmem) (by decide)
  stop := release_letters mark ds
  pre := preRelease_letters mark h

/-! ## Reading the whole -/

theorem ofText?_chars {f : ReleaseForm} (h : ∀ ds ∈ f.numbers, IsRun ds) :
    ofText? f.chars = some f.written := by
  obtain ⟨major, minor, patch, mark⟩ := f
  obtain ⟨hmajor, hminor, hpatch, hmark⟩ := ReleaseForm.forall_mem_numbers_iff.mp h
  have hmore : ∀ ds ∈ minor :: patch.toList, IsRun ds :=
    List.forall_mem_cons.mpr ⟨hminor, fun ds hds => hpatch ds (Option.mem_toList.mp hds)⟩
  cases mark with
  | none => exact ofText?_dotted_append hmajor hmore endsRelease_nil
  | some marked => exact ofText?_dotted_append hmajor hmore (endsRelease_letters marked.1 (hmark marked rfl))

end Written

/-- A text of this form is read exactly if none of its numbers is too long. -/
theorem read_eq_ok_iff_of_form {text : String} {f : ReleaseForm} {v : Version}
    (h : ∀ ds ∈ f.numbers, IsRun ds) (htext : text.toList = f.chars) :
    read text = .ok v ↔
      (∀ ds ∈ f.numbers, ds.length ≤ digitLimit) ∧ v = f.written.map digitsValue := by
  have hwritten : Written.ofText? text.toList = some f.written := by
    rw [htext, Written.ofText?_chars h]
  by_cases hfit : ∀ ds ∈ f.numbers, ds.length ≤ digitLimit
  · have hall : ∀ ds ∈ f.written.numbers, ds.length ≤ digitLimit := by
      rw [f.numbers_written]
      exact List.forall_mem_cons.mpr ⟨Nat.zero_le _, hfit⟩
    rw [read_of_digitsFit hwritten hall]
    constructor
    · intro hv
      exact ⟨hfit, (Except.ok.inj hv).symm⟩
    · rintro ⟨-, rfl⟩
      rfl
  · have hlong : ∃ ds ∈ f.written.numbers, digitLimit < ds.length := by
      rw [f.numbers_written]
      simpa using hfit
    have hread : read text = .error .numberTooLong :=
      read_eq_numberTooLong_iff.mpr ⟨f.written, hwritten, hlong⟩
    rw [hread]
    constructor
    · intro hv
      contradiction
    · rintro ⟨hshort, -⟩
      exact absurd hshort hfit

/-- The text of a release: its numbers are ASCII digits, and short enough to be read. -/
structure Release extends ReleaseForm where
  isRun : ∀ ds ∈ toReleaseForm.numbers, IsRun ds
  fits : ∀ ds ∈ toReleaseForm.numbers, ds.length ≤ digitLimit

namespace Release

def text (r : Release) : String := String.ofList r.chars

theorem toList_text (r : Release) : r.text.toList = r.chars := String.toList_ofList

theorem read_text (r : Release) : read r.text = .ok (r.written.map digitsValue) :=
  (read_eq_ok_iff_of_form r.isRun r.toList_text).mpr ⟨r.fits, rfl⟩

theorem isValid_text (r : Release) : isValid r.text = .ok true :=
  isValid_eq_true_iff.mpr ⟨_, r.read_text⟩

theorem majorMinorOf_text (r : Release) :
    majorMinorOf r.text =
      .ok ⟨Nat.ofDigitChars 10 r.major 0, Nat.ofDigitChars 10 r.minor 0⟩ := by
  rw [← Number.digitsValue_eq, ← Number.digitsValue_eq]
  exact majorMinorOf_eq_ok_iff.mpr ⟨_, r.read_text, rfl⟩

end Release

/-- What has this form and can be read is a release. -/
theorem exists_release_of_read {text : String} {f : ReleaseForm} {v : Version}
    (h : ∀ ds ∈ f.numbers, IsRun ds) (htext : text.toList = f.chars) (hread : read text = .ok v) : ∃ r : Release, r.text = text := by
  obtain ⟨hfit, -⟩ := (read_eq_ok_iff_of_form h htext).mp hread
  refine ⟨⟨f, h, hfit⟩, ?_⟩
  rw [Release.text, ← htext, String.ofList_toList]

end ToolchainChoice.Version
