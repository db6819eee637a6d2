import ToolchainChoice.Proofs.Identification.Usable
import ToolchainChoice.Proofs.Installation.Reading
import ToolchainChoice.Proofs.Version.Epoch

/-!
# The form of what a banner yields

Whatever a banner is, the version that is cut out of it is two numbers with a point between them, then
perhaps a point and a third number, and then perhaps the mark of an unfinished version and its number.
There is no room in this form for an epoch. The digits may be those of any script: only reading the
version afterwards leaves no others than ASCII digits.
-/
namespace ToolchainChoice.Installation

open SupportedRange (IsNumeral)
open Text (isDecimalDigit)
open Traced

variable {after v ds : List Char} {path : Files.Path} {installed : Installed}

/-- The text has the form of a released or an unfinished version. -/
def HasReleaseForm (v : List Char) : Prop :=
  ∃ major minor patch mark, IsNumeral major ∧ IsNumeral minor ∧ IsPatch patch ∧ IsMark mark ∧
    v = major ++ '.' :: minor ++ patch ++ mark

theorem Reading.hasReleaseForm (h : Reading v after) : HasReleaseForm v := by
  cases h with
  | patched hmajor hminor hpatch hmark =>
    exact ⟨_, _, _, _, hmajor, hminor, .inr ⟨_, hpatch, rfl⟩, hmark, rfl⟩
  | plain hmajor hminor hmark =>
    exact ⟨_, _, [], _, hmajor, hminor, .inl rfl, hmark, by rw [List.append_nil]⟩
  | cut hmajor hminor =>
    exact ⟨_, _, [], [], hmajor, hminor, .inl rfl, .inl rfl, by simp⟩

theorem hasReleaseForm_of_banner? {output version : String} (h : banner? output = some version) :
    HasReleaseForm version.toList := by
  obtain ⟨before, after, hfound⟩ := banner?_eq_some_iff.mp h
  exact hfound.stands.reading.hasReleaseForm

/-! ## Where the version of what is installed comes from -/

theorem unusable_ne_some (message : Symbols) : (unusable message).result ≠ .ok (some installed) := by
  intro h
  have hnone := unusable_result h
  contradiction

theorem ofOutput_eq_some_iff {output : String} :
    (ofOutput path output).result = .ok (some installed) ↔
      banner? output = some installed.version ∧ Version.isValid installed.version = .ok true ∧
        installed.path = path := by
  unfold ofOutput
  constructor
  · intro h
    dsimp only at h
    split at h
    · exact absurd h (unusable_ne_some _)
    · rename_i version hversion
      obtain ⟨valid, hvalid, h⟩ := result_bind_eq_ok_iff.mp h
      rw [result_lift] at hvalid
      cases valid with
      | true =>
        obtain ⟨-, -, h⟩ := result_bind_eq_ok_iff.mp h
        obtain rfl := Option.some.inj (Except.ok.inj h)
        exact ⟨hversion, hvalid, rfl⟩
      | false => exact absurd h (unusable_ne_some _)
  · rintro ⟨hversion, hvalid, rfl⟩
    rw [hversion]
    exact result_bind_eq_ok_iff.mpr ⟨true, hvalid, rfl⟩

theorem ofReply_eq_some_iff {reply : Reply} :
    (ofReply path reply).result = .ok (some installed) ↔
      ∃ output, reply = .exited 0 output ∧ banner? output = some installed.version ∧
        Version.isValid installed.version = .ok true ∧ installed.path = path := by
  constructor
  · intro h
    unfold ofReply at h
    split at h
    · split at h
      · rename_i output hcode
        exact ⟨output, by rw [hcode], ofOutput_eq_some_iff.mp h⟩
      · exact absurd h (unusable_ne_some _)
    · contradiction
    · exact absurd h (unusable_ne_some _)
    · exact absurd h (unusable_ne_some _)
    · contradiction
  · rintro ⟨output, rfl, houtput⟩
    exact ofOutput_eq_some_iff.mpr houtput

theorem locate_eq_some_iff {machine : Machine} {executable : Symbols} :
    machine.locate executable = some path ↔
      ∃ found, machine.find executable = some found ∧ found ≠ "" ∧ path = .ofText found := by
  unfold Machine.locate
  cases machine.find executable with
  | none => simp
  | some found => by_cases hempty : found = "" <;> simp [hempty, eq_comm]

/-- The executable is found at this place, and the one there exits without an error and shows this. -/
structure Shows (machine : Machine) (executable : Symbols) (found output : String) : Prop where
  find : machine.find executable = some found
  ne_empty : found ≠ ""
  reply : machine.reply (.ofText found) = .exited 0 output

theorem detect_eq_some_iff {machine : Machine} {executable : Symbols} :
    (detect machine executable).result = .ok (some installed) ↔
      ∃ found output, Shows machine executable found output ∧
        banner? output = some installed.version ∧
        Version.isValid installed.version = .ok true ∧ installed.path = .ofText found := by
  unfold detect
  constructor
  · intro h
    split at h
    · exact absurd h (unusable_ne_some _)
    · rename_i path hlocate
      obtain ⟨found, hfind, hne, rfl⟩ := locate_eq_some_iff.mp hlocate
      obtain ⟨output, hreply, houtput⟩ := ofReply_eq_some_iff.mp h
      exact ⟨found, output, ⟨hfind, hne, hreply⟩, houtput⟩
  · rintro ⟨found, output, ⟨hfind, hne, hreply⟩, houtput⟩
    rw [locate_eq_some_iff.mpr ⟨found, hfind, hne, rfl⟩]
    exact ofReply_eq_some_iff.mpr ⟨output, hreply, houtput⟩

/-- The version of what is installed is the one in a banner. -/
theorem exists_banner_of_detect {machine : Machine} {executable : Symbols}
    (h : (detect machine executable).result = .ok (some installed)) :
    ∃ output, banner? output = some installed.version := by
  obtain ⟨-, output, -, houtput, -⟩ := detect_eq_some_iff.mp h
  exact ⟨output, houtput⟩

/-! ## The characters of this form -/

/-- What stands between the numbers. -/
def formMarks : List Char := ['.', 'r', 'c', 'b', 'e', 't', 'a']

/-- A number, and the marks it stands behind. -/
theorem digit_or_mark_append {marks : List Char} (hmarks : marks ⊆ formMarks) (h : IsNumeral ds) :
    ∀ c ∈ marks ++ ds, isDecimalDigit c = true ∨ c ∈ formMarks := by
  intro c hc
  rcases List.mem_append.mp hc with hc | hc
  · exact .inr (hmarks hc)
  · exact .inl (h.2 c hc)

theorem HasReleaseForm.digit_or_mark (h : HasReleaseForm v) :
    ∀ c ∈ v, isDecimalDigit c = true ∨ c ∈ formMarks := by
  obtain ⟨major, minor, patch, mark, hmajor, hminor, hpatch, hmark, rfl⟩ := h
  have hpoint : ['.'] ⊆ formMarks := by decide
  have hfirst : ∀ c ∈ major ++ '.' :: minor, isDecimalDigit c = true ∨ c ∈ formMarks :=
    List.forall_mem_append.mpr
      ⟨digit_or_mark_append (List.nil_subset _) hmajor, digit_or_mark_append hpoint hminor⟩
  have hthird : ∀ c ∈ patch, isDecimalDigit c = true ∨ c ∈ formMarks := by
    rcases hpatch with rfl | ⟨ds, hds, rfl⟩
    · exact List.forall_mem_nil _
    · exact digit_or_mark_append hpoint hds
  have hlast : ∀ c ∈ mark, isDecimalDigit c = true ∨ c ∈ formMarks := by
    rcases hmark with rfl | ⟨ds, hds, rfl | rfl⟩
    · exact List.forall_mem_nil _
    · exact digit_or_mark_append (by decide) hds
    · exact digit_or_mark_append (by decide) hds
  exact List.forall_mem_append.mpr ⟨List.forall_mem_append.mpr ⟨hfirst, hthird⟩, hlast⟩

theorem HasReleaseForm.mark_notMem (h : HasReleaseForm v) : '!' ∉ v := by
  intro hmark
  have hnot : ¬(isDecimalDigit '!' = true ∨ '!' ∈ formMarks) := by decide
  exact hnot (h.digit_or_mark '!' hmark)

/-- A machine that holds the first candidate of a version. -/
def candidateMachine : Machine where
  find _ := some "/usr/bin/go"
  reply _ := .exited 0 "go version go1.22rc1 linux/amd64\n"

end ToolchainChoice.Installation
