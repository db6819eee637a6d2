import ToolchainChoice.Proofs.Installation.Reading

/-!
# Where the version of a banner ends

A version is taken to end where a word ends, and a word ends before a point as well. So the number behind
a point can be left standing: a fourth one, one behind a mark, or a third one that runs on into something
that no version ends with. In every other banner no number follows the version behind a point.
-/
namespace ToolchainChoice.Installation

open SupportedRange (IsNumeral)

variable {version after : List Char}

/-- The text behind the letters goes on behind its version with a point and a number. -/
inductive CutsOff : List Char → Prop
  /-- A fourth number. -/
  | fourth {major minor patch rest : List Char} (hmajor : IsNumeral major) (hminor : IsNumeral minor)
      (hpatch : IsNumeral patch) (hpoint : PointAhead rest) :
      CutsOff (major ++ '.' :: minor ++ '.' :: patch ++ rest)
  /-- A third number, behind which no version ends. -/
  | runsOn {major minor patch rest : List Char} (hmajor : IsNumeral major) (hminor : IsNumeral minor)
      (hpatch : IsNumeral patch) (hends : EndsNumber rest) (hrest : ¬ Finishes rest) :
      CutsOff (major ++ '.' :: minor ++ '.' :: patch ++ rest)
  /-- A number behind the one of the mark. -/
  | behindMark {major minor patch mark rest : List Char} (hmajor : IsNumeral major)
      (hminor : IsNumeral minor) (hpatch : IsPatch patch) (hmark : IsMark mark) (hne : mark ≠ [])
      (hpoint : PointAhead rest) :
      CutsOff (major ++ '.' :: minor ++ patch ++ mark ++ rest)

theorem cutsOff_of_pointAhead (h : Reading version after) (hpoint : PointAhead after) :
    CutsOff (version ++ after) := by
  cases h with
  | @patched major minor patch mark _ hmajor hminor hpatch hmark _ =>
    by_cases hne : mark = []
    · subst hne
      rw [List.append_nil]
      exact .fourth hmajor hminor hpatch hpoint
    · exact .behindMark hmajor hminor (.inr ⟨patch, hpatch, rfl⟩) hmark hne hpoint
  | @plain major minor mark _ hmajor hminor hmark _ hnone =>
    by_cases hne : mark = []
    · subst hne
      exact absurd hpoint hnone
    · have hcut := CutsOff.behindMark hmajor hminor (.inl rfl) hmark hne hpoint
      rw [List.append_nil] at hcut
      exact hcut
  | cut hmajor hminor hpatch hends hrest =>
    rw [← List.append_assoc]
    exact .runsOn hmajor hminor hpatch hends hrest

/-- In each of the three cases the reader stops before a point and a number. -/
theorem CutsOff.exists_reading {cs : List Char} (h : CutsOff cs) :
    ∃ version after, cs = version ++ after ∧ Reading version after ∧ PointAhead after := by
  cases h with
  | @fourth major minor patch rest hmajor hminor hpatch hpoint =>
    refine ⟨_, rest, ?_, .patched hmajor hminor hpatch (.inl rfl) hpoint.endsWord, hpoint⟩
    rw [List.append_nil]
  | @runsOn major minor patch rest hmajor hminor hpatch hends hrest =>
    refine ⟨_, '.' :: patch ++ rest, ?_, .cut hmajor hminor hpatch hends hrest,
      pointAhead_append hpatch rest⟩
    rw [List.append_assoc]
  | @behindMark major minor patch mark rest hmajor hminor hpatch hmark hne hpoint =>
    rcases hpatch with rfl | ⟨ds, hds, rfl⟩
    · -- the mark keeps a third number from being read
      have hnone : ¬ PointAhead (mark ++ rest) := fun hahead =>
        hmark.not_endsWord hne rest hahead.endsWord
      refine ⟨_, rest, ?_, .plain hmajor hminor hmark hpoint.endsWord hnone, hpoint⟩
      rw [List.append_nil]
    · exact ⟨_, rest, rfl, .patched hmajor hminor hds hmark hpoint.endsWord, hpoint⟩

/-- Since a text has one reading only, the three cases are all there are. -/
theorem Reading.pointAhead_iff (h : Reading version after) :
    PointAhead after ↔ CutsOff (version ++ after) := by
  constructor
  · exact cutsOff_of_pointAhead h
  · intro hcut
    obtain ⟨version', after', htext, hreading, hpoint⟩ := hcut.exists_reading
    rw [(h.unique hreading htext).2]
    exact hpoint

/-- What is returned is the first version that stands in the output, and a point and a digit follow it
exactly if the version is cut off there. -/
theorem banner_ends_before_point_iff (output version : String) :
    banner? output = some version ↔
      ∃ before after, FoundAt none output.toList before version.toList after ∧
        (PointAhead after ↔ CutsOff (version.toList ++ after)) := by
  rw [banner?_eq_some_iff]
  constructor
  · rintro ⟨before, after, hfound⟩
    exact ⟨before, after, hfound, hfound.stands.reading.pointAhead_iff⟩
  · rintro ⟨before, after, hfound, -⟩
    exact ⟨before, after, hfound⟩

/-- The patch level `10` is left out because no version ends behind it. -/
theorem patch_cut_off_before_b7 :
    banner? "go version go1.18.10b7 linux/amd64" = some "1.18" ∧
      FoundAt none "go version go1.18.10b7 linux/amd64".toList greeting "1.18".toList
        ".10b7 linux/amd64".toList ∧
      PointAhead ".10b7 linux/amd64".toList := by
  have hreading : Reading "1.18".toList ".10b7 linux/amd64".toList := by decide
  have hfound := foundAt_greeting hreading
  exact ⟨banner?_eq_some_iff.mpr ⟨_, _, hfound⟩, hfound, '1', "0b7 linux/amd64".toList, rfl, rfl⟩

end ToolchainChoice.Installation
