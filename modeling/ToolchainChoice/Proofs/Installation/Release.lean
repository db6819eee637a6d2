import ToolchainChoice.Proofs.Installation.Banner
import ToolchainChoice.Proofs.Version.Characters
import ToolchainChoice.Proofs.Version.Release

/-!
# Released toolchains are detected, and nothing else is

A toolchain writes the version under which it was released behind its greeting, and then white space or
nothing. What is detected of it is this version, to the letter. Digits of another script pass for
numbers in a banner, but no version holds any, so whatever is detected was released under a version that
consists of ASCII digits.
-/
namespace ToolchainChoice.Installation

open SupportedRange (IsNumeral)
open Text (isBlank)
open Version (IsRun Release ReleaseForm markChars)

variable {v cs rest : List Char} {marked : Option (Version.Mark × List Char)}

/-! ## From the release to its banner -/

/-- The text is empty or begins with white space. -/
def EndsAtBlank (cs : List Char) : Prop := ∀ c ∈ cs.head?, isBlank c = true

theorem EndsAtBlank.endsWord (h : EndsAtBlank rest) : EndsWord rest :=
  fun c hc => Text.isWord_of_isBlank (h c hc)

theorem EndsAtBlank.not_pointAhead (h : EndsAtBlank rest) : ¬ PointAhead rest := by
  rintro ⟨d, more, -, rfl⟩
  have hblank := h '.' rfl
  contradiction

theorem isMark_markChars (h : ∀ m ∈ marked, IsNumeral m.2) : IsMark (markChars marked) := by
  cases marked with
  | none => exact .inl rfl
  | some m =>
    obtain ⟨mark, ds⟩ := m
    cases mark with
    | beta => exact .inr ⟨ds, h _ rfl, .inr rfl⟩
    | candidate => exact .inr ⟨ds, h _ rfl, .inl rfl⟩

/-- A point after the mark is none after the number before the mark. -/
theorem not_pointAhead_markChars (hmark : IsMark (markChars marked)) (h : EndsAtBlank rest) :
    ¬ PointAhead (markChars marked ++ rest) := by
  by_cases hne : markChars marked = []
  · rw [hne]
    exact h.not_pointAhead
  · intro hpoint
    exact hmark.not_endsWord hne rest hpoint.endsWord

/-- The text of a release before white space is read to its end. -/
theorem reading_of_release (r : Release) (h : EndsAtBlank rest) : Reading r.chars rest := by
  obtain ⟨⟨major, minor, patch, marked⟩, hrun, -⟩ := r
  obtain ⟨hmajor, hminor, hpatch, hmarked⟩ :=
    ReleaseForm.forall_mem_numbers_iff.mp fun ds hds => IsNumeral.of_isRun (hrun ds hds)
  have hmark := isMark_markChars hmarked
  rw [ReleaseForm.chars_eq]
  cases patch with
  | none =>
    have hpoint := not_pointAhead_markChars hmark h
    simpa using Reading.plain hmajor hminor hmark h.endsWord hpoint
  | some patch => simpa using Reading.patched hmajor hminor (hpatch patch rfl) hmark h.endsWord

theorem banner?_of_release (r : Release) {rest : String} (h : EndsAtBlank rest.toList) :
    banner? ("go version go" ++ r.text ++ rest) = some r.text := by
  have hfound := foundAt_greeting (reading_of_release r h)
  refine banner?_eq_some_iff.mpr ⟨greeting, rest.toList, ?_⟩
  rw [String.toList_append, String.toList_append, r.toList_text, List.append_assoc]
  exact hfound

/-! ## From the banner to the release -/

theorem IsPatch.exists_eq (h : IsPatch cs) :
    ∃ patch : Option (List Char),
      (∀ ds ∈ patch, IsNumeral ds) ∧ cs = patch.toList.flatMap ('.' :: ·) := by
  rcases h with rfl | ⟨ds, hds, rfl⟩
  · exact ⟨none, nofun, rfl⟩
  · exact ⟨some ds, by simpa using hds, by simp⟩

theorem IsMark.exists_eq (h : IsMark cs) :
    ∃ marked : Option (Version.Mark × List Char),
      (∀ m ∈ marked, IsNumeral m.2) ∧ cs = markChars marked := by
  rcases h with rfl | ⟨ds, hds, rfl | rfl⟩
  · exact ⟨none, nofun, rfl⟩
  · exact ⟨some (.candidate, ds), by simpa using hds, rfl⟩
  · exact ⟨some (.beta, ds), by simpa using hds, rfl⟩

theorem HasReleaseForm.exists_eq (h : HasReleaseForm v) :
    ∃ f : ReleaseForm, (∀ ds ∈ f.numbers, IsNumeral ds) ∧ v = f.chars := by
  obtain ⟨major, minor, patch, mark, hmajor, hminor, hpatch, hmark, rfl⟩ := h
  obtain ⟨patch, hthird, rfl⟩ := hpatch.exists_eq
  obtain ⟨marked, hmarked, rfl⟩ := hmark.exists_eq
  refine ⟨⟨major, minor, patch, marked⟩, ?_, (ReleaseForm.chars_eq ⟨major, minor, patch, marked⟩).symm⟩
  exact ReleaseForm.forall_mem_numbers_iff.mpr ⟨hmajor, hminor, hthird, hmarked⟩

/-- Reading the version rules out what else has the form of one. -/
theorem exists_release_of_isValid {version : String} (h : HasReleaseForm version.toList)
    (hvalid : Version.isValid version = .ok true) : ∃ r : Release, r.text = version := by
  obtain ⟨f, hnumeral, hchars⟩ := h.exists_eq
  obtain ⟨w, hread⟩ := Version.isValid_eq_true_iff.mp hvalid
  have hrun : ∀ ds ∈ f.numbers, IsRun ds := by
    intro ds hds
    refine ⟨(hnumeral ds hds).1, ?_⟩
    intro c hc
    have hmem : c ∈ version.toList := by
      rw [hchars]
      exact ReleaseForm.subset_chars hds hc
    exact Version.isDigit_of_read hread hmem ((hnumeral ds hds).2 c hc)
  exact Version.exists_release_of_read hrun hchars hread

/-! ## Detection -/

/-- A toolchain that shows its release behind the greeting is detected with it, and its first two numbers
are those of the release. Whatever is detected has shown a release. -/
theorem detects_releases_exactly (machine : Machine) (executable : Symbols) :
    (∀ (r : Release) (found rest : String), EndsAtBlank rest.toList →
      Shows machine executable found ("go version go" ++ r.text ++ rest) →
        (detect machine executable).result = .ok (some ⟨r.text, .ofText found⟩) ∧
        Version.isValid r.text = .ok true ∧
        Version.majorMinorOf r.text =
          .ok ⟨Nat.ofDigitChars 10 r.major 0, Nat.ofDigitChars 10 r.minor 0⟩) ∧
    ∀ installed, (detect machine executable).result = .ok (some installed) →
      ∃ (r : Release) (found output : String), installed = ⟨r.text, .ofText found⟩ ∧
        Shows machine executable found output ∧ banner? output = some r.text := by
  constructor
  · intro r found rest hrest hshows
    have hbanner := banner?_of_release r hrest
    refine ⟨?_, r.isValid_text, r.majorMinorOf_text⟩
    exact detect_eq_some_iff.mpr ⟨found, _, hshows, hbanner, r.isValid_text, rfl⟩
  · rintro ⟨version, path⟩ hdetect
    obtain ⟨found, output, hshows, hbanner, hvalid, rfl⟩ := detect_eq_some_iff.mp hdetect
    obtain ⟨r, rfl⟩ := exists_release_of_isValid (hasReleaseForm_of_banner? hbanner) hvalid
    exact ⟨r, found, output, rfl, hshows, hbanner⟩

/-- The first candidate of a version. -/
def firstCandidate : Release where
  major := "1".toList
  minor := "22".toList
  patch := none
  mark := some (.candidate, "1".toList)
  isRun := by decide
  fits := by decide

theorem detects_1_22rc1 :
    (detect candidateMachine "go").result = .ok (some ⟨"1.22rc1", .ofText "/usr/bin/go"⟩) ∧
      Version.isValid "1.22rc1" = .ok true ∧ Version.majorMinorOf "1.22rc1" = .ok ⟨1, 22⟩ ∧
      ∃ (r : Release) (found output : String),
        (⟨"1.22rc1", .ofText "/usr/bin/go"⟩ : Installed) = ⟨r.text, .ofText found⟩ ∧
        Shows candidateMachine "go" found output ∧ banner? output = some r.text := by
  have hblank : EndsAtBlank " linux/amd64\n".toList := by
    intro c hc
    obtain rfl := Option.some.inj hc
    decide
  have htext : firstCandidate.text = "1.22rc1" := by decide
  have houtput : "go version go1.22rc1 linux/amd64\n" =
      "go version go" ++ firstCandidate.text ++ " linux/amd64\n" := by decide
  have hshows : Shows candidateMachine "go" "/usr/bin/go"
      ("go version go" ++ firstCandidate.text ++ " linux/amd64\n") :=
    ⟨rfl, by decide, congrArg (Reply.exited 0) houtput⟩
  obtain ⟨hforward, hback⟩ := detects_releases_exactly candidateMachine "go"
  obtain ⟨hdetect, hvalid, hnumbers⟩ := hforward firstCandidate "/usr/bin/go" " linux/amd64\n" hblank hshows
  rw [htext] at hdetect hvalid hnumbers
  exact ⟨hdetect, hvalid, hnumbers, hback _ hdetect⟩

end ToolchainChoice.Installation
