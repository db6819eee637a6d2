import ToolchainChoice.Installation.Banner
import ToolchainChoice.Proofs.Range.Bounds
import ToolchainChoice.Proofs.Text.Digits

/-!
# How a banner is read

The reader of a banner takes the longest run of digits wherever it reads a number, and gives back a third
number or a mark if what it has read by then does not end as a word. `Reading` lists what it can come to:
which text is taken for a version, and what stands behind it. The version in a banner is the reading at
the first place where there is one (`FoundAt`).
-/
namespace ToolchainChoice.Installation

open SupportedRange (IsNumeral)
open Text (isDecimalDigit isWord isWordAt)

variable {cs rest version after v ds major minor patch mark : List Char}
variable {piece : List Char × List Char}

/-- A third number and its point, or nothing. -/
def IsPatch (cs : List Char) : Prop := cs = [] ∨ ∃ ds, IsNumeral ds ∧ cs = '.' :: ds

/-- The mark of an unfinished version and its number, or nothing. -/
def IsMark (cs : List Char) : Prop :=
  cs = [] ∨ ∃ ds, IsNumeral ds ∧ (cs = "rc".toList ++ ds ∨ cs = "beta".toList ++ ds)

/-! ## What follows a number or a word -/

/-- The text does not begin with a digit. -/
def EndsNumber (cs : List Char) : Prop := ∀ c ∈ cs.head?, isDecimalDigit c = false

/-- The text does not begin with a word character. -/
def EndsWord (cs : List Char) : Prop := ∀ c ∈ cs.head?, isWord c = false

/-- The text begins with a point and a digit. -/
def PointAhead (cs : List Char) : Prop := ∃ d rest, isDecimalDigit d = true ∧ cs = '.' :: d :: rest

theorem EndsWord.endsNumber (h : EndsWord cs) : EndsNumber cs := by
  intro c hc
  rw [Bool.eq_false_iff]
  intro hdigit
  have hword := h c hc
  rw [Text.isWord_of_isDecimalDigit hdigit] at hword
  contradiction

theorem isWordAt_head?_eq_false_iff : isWordAt cs.head? = false ↔ EndsWord cs := by
  unfold EndsWord
  cases cs.head? with
  | none => simp [isWordAt]
  | some c => simp [isWordAt]

theorem endsWord_point (cs : List Char) : EndsWord ('.' :: cs) := by
  intro c hc
  obtain rfl := Option.some.inj hc
  decide

theorem PointAhead.endsWord (h : PointAhead cs) : EndsWord cs := by
  obtain ⟨d, rest, -, rfl⟩ := h
  exact endsWord_point _

theorem pointAhead_append (h : IsNumeral ds) (rest : List Char) : PointAhead ('.' :: ds ++ rest) := by
  obtain ⟨d, more, hdigit, rfl⟩ := h.exists_cons
  exact ⟨d, more ++ rest, hdigit, rfl⟩

/-- Marks begin with a letter. -/
theorem IsMark.not_endsWord (h : IsMark mark) (hne : mark ≠ []) (rest : List Char) :
    ¬ EndsWord (mark ++ rest) := by
  intro hends
  rcases h with rfl | ⟨ds, -, rfl | rfl⟩
  · contradiction
  · exact absurd (hends 'r' rfl) (by decide)
  · exact absurd (hends 'b' rfl) (by decide)

theorem IsMark.endsNumber (h : IsMark mark) (hends : EndsWord rest) : EndsNumber (mark ++ rest) := by
  intro c hc
  rcases h with rfl | ⟨ds, -, rfl | rfl⟩
  · exact hends.endsNumber c hc
  · obtain rfl := Option.some.inj hc
    decide
  · obtain rfl := Option.some.inj hc
    decide

/-! ## The pieces -/

/-- The longest run of digits is taken. -/
theorem number?_eq_some_iff :
    number? cs = some piece ↔ IsNumeral piece.1 ∧ EndsNumber piece.2 ∧ cs = piece.1 ++ piece.2 := by
  obtain ⟨ds, rest⟩ := piece
  constructor
  · intro h
    unfold number? at h
    split at h
    · contradiction
    · rename_i digits hne
      obtain ⟨rfl, rfl⟩ := Prod.mk.inj (Option.some.inj h)
      refine ⟨⟨hne, List.all_eq_true.mp List.all_takeWhile⟩, ?_, List.takeWhile_append_dropWhile.symm⟩
      intro c hc
      have hnot := List.head?_dropWhile_not isDecimalDigit cs
      rw [hc] at hnot
      exact hnot
  · rintro ⟨hnumeral, hends, rfl⟩
    have hstop : rest.takeWhile isDecimalDigit = [] ∧ rest.dropWhile isDecimalDigit = rest := by
      cases rest with
      | nil => exact ⟨rfl, rfl⟩
      | cons c rest => simp [hends c rfl]
    unfold number?
    dsimp only
    rw [List.takeWhile_append_of_pos hnumeral.2, List.dropWhile_append_of_pos hnumeral.2, hstop.1,
      hstop.2, List.append_nil]
    split
    · rename_i hnil
      exact absurd hnil hnumeral.1
    · rfl

theorem pointNumber?_eq_some_iff :
    pointNumber? cs = some piece ↔
      ∃ ds, IsNumeral ds ∧ EndsNumber piece.2 ∧ piece.1 = '.' :: ds ∧ cs = piece.1 ++ piece.2 := by
  obtain ⟨patch, rest⟩ := piece
  constructor
  · intro h
    unfold pointNumber? at h
    split at h
    · obtain ⟨number, hnumber, hpiece⟩ := Option.map_eq_some_iff.mp h
      obtain ⟨rfl, rfl⟩ := Prod.mk.inj hpiece
      obtain ⟨hnumeral, hends, rfl⟩ := number?_eq_some_iff.mp hnumber
      exact ⟨number.1, hnumeral, hends, rfl, rfl⟩
    · contradiction
  · rintro ⟨ds, hnumeral, hends, rfl, rfl⟩
    have hnumber : number? (ds ++ rest) = some (ds, rest) :=
      number?_eq_some_iff.mpr ⟨hnumeral, hends, rfl⟩
    rw [List.cons_append, pointNumber?, hnumber]
    rfl

theorem pointNumber?_eq_none (h : ¬ PointAhead cs) : pointNumber? cs = none := by
  rw [Option.eq_none_iff_forall_ne_some]
  intro piece hpiece
  obtain ⟨ds, hds, -, hpoint, rfl⟩ := pointNumber?_eq_some_iff.mp hpiece
  rw [hpoint] at h
  exact h (pointAhead_append hds piece.2)

theorem candidate?_eq_some_iff :
    candidate? cs = some piece ↔
      piece.1 ≠ [] ∧ IsMark piece.1 ∧ EndsNumber piece.2 ∧ cs = piece.1 ++ piece.2 := by
  obtain ⟨mark, rest⟩ := piece
  constructor
  · intro h
    unfold candidate? at h
    split at h
    · obtain ⟨number, hnumber, hpiece⟩ := Option.map_eq_some_iff.mp h
      obtain ⟨rfl, rfl⟩ := Prod.mk.inj hpiece
      obtain ⟨hnumeral, hends, rfl⟩ := number?_eq_some_iff.mp hnumber
      exact ⟨List.cons_ne_nil _ _, .inr ⟨number.1, hnumeral, .inl rfl⟩, hends, rfl⟩
    · obtain ⟨number, hnumber, hpiece⟩ := Option.map_eq_some_iff.mp h
      obtain ⟨rfl, rfl⟩ := Prod.mk.inj hpiece
      obtain ⟨hnumeral, hends, rfl⟩ := number?_eq_some_iff.mp hnumber
      exact ⟨List.cons_ne_nil _ _, .inr ⟨number.1, hnumeral, .inr rfl⟩, hends, rfl⟩
    · contradiction
  · rintro ⟨hne, rfl | ⟨ds, hnumeral, hmark⟩, hends, rfl⟩
    · contradiction
    · have hnumber : number? (ds ++ rest) = some (ds, rest) :=
        number?_eq_some_iff.mpr ⟨hnumeral, hends, rfl⟩
      rcases hmark with rfl | rfl
      · show (number? (ds ++ rest)).map _ = _
        rw [hnumber]
        rfl
      · show (number? (ds ++ rest)).map _ = _
        rw [hnumber]
        rfl

theorem complete?_eq_some_iff : complete? version rest = some v ↔ EndsWord rest ∧ v = version := by
  rw [← isWordAt_head?_eq_false_iff]
  unfold complete?
  split
  · simp [*]
  · rename_i hword
    rw [Bool.not_eq_true] at hword
    simp [hword, eq_comm]

/-- A version can end before this text, with a mark or without one. -/
def Finishes (rest : List Char) : Prop := ∃ mark left, IsMark mark ∧ EndsWord left ∧ rest = mark ++ left

/-- Where the version ends without a mark no mark can be read. -/
theorem finish?_eq_some_iff :
    finish? version rest = some v ↔
      ∃ mark left, IsMark mark ∧ EndsWord left ∧ rest = mark ++ left ∧ v = version ++ mark := by
  unfold finish?
  rw [Option.or_eq_some_iff]
  constructor
  · rintro (h | ⟨-, h⟩)
    · obtain ⟨⟨mark, left⟩, hcandidate, hcomplete⟩ := Option.bind_eq_some_iff.mp h
      obtain ⟨-, hmark, -, hrest⟩ := candidate?_eq_some_iff.mp hcandidate
      obtain ⟨hends, hv⟩ := complete?_eq_some_iff.mp hcomplete
      exact ⟨mark, left, hmark, hends, hrest, hv⟩
    · obtain ⟨hends, rfl⟩ := complete?_eq_some_iff.mp h
      exact ⟨[], rest, .inl rfl, hends, rfl, (List.append_nil _).symm⟩
  · rintro ⟨mark, left, hmark, hends, rfl, rfl⟩
    by_cases hne : mark = []
    · subst hne
      have hcandidate : candidate? left = none := by
        rw [Option.eq_none_iff_forall_ne_some]
        intro piece hpiece
        obtain ⟨hne, hmark, -, hleft⟩ := candidate?_eq_some_iff.mp hpiece
        rw [hleft] at hends
        exact hmark.not_endsWord hne piece.2 hends
      rw [List.nil_append, hcandidate, List.append_nil]
      exact .inr ⟨rfl, complete?_eq_some_iff.mpr ⟨hends, rfl⟩⟩
    · have hcandidate : candidate? (mark ++ left) = some (mark, left) :=
        candidate?_eq_some_iff.mpr ⟨hne, hmark, hends.endsNumber, rfl⟩
      rw [hcandidate]
      exact .inl (complete?_eq_some_iff.mpr ⟨hends, rfl⟩)

theorem finish?_eq_none_iff : finish? version rest = none ↔ ¬ Finishes rest := by
  rw [Option.eq_none_iff_forall_ne_some]
  constructor
  · rintro h ⟨mark, left, hmark, hends, hrest⟩
    exact h _ (finish?_eq_some_iff.mpr ⟨mark, left, hmark, hends, hrest, rfl⟩)
  · intro h v hv
    obtain ⟨mark, left, hmark, hends, hrest, -⟩ := finish?_eq_some_iff.mp hv
    exact h ⟨mark, left, hmark, hends, hrest⟩

/-! ## The whole -/

/-- What is taken for a version of a text that follows the letters, and what then stands behind it. -/
inductive Reading : List Char → List Char → Prop
  /-- Three numbers, with or without a mark. -/
  | patched {major minor patch mark after : List Char} (hmajor : IsNumeral major)
      (hminor : IsNumeral minor) (hpatch : IsNumeral patch) (hmark : IsMark mark)
      (hends : EndsWord after) :
      Reading (major ++ '.' :: minor ++ '.' :: patch ++ mark) after
  /-- Two numbers, with or without a mark, and no third one. -/
  | plain {major minor mark after : List Char} (hmajor : IsNumeral major)
      (hminor : IsNumeral minor) (hmark : IsMark mark) (hends : EndsWord after)
      (hpoint : ¬ PointAhead (mark ++ after)) :
      Reading (major ++ '.' :: minor ++ mark) after
  /-- The first two of three numbers, of which the third runs on. -/
  | cut {major minor patch rest : List Char} (hmajor : IsNumeral major)
      (hminor : IsNumeral minor) (hpatch : IsNumeral patch) (hends : EndsNumber rest)
      (hrest : ¬ Finishes rest) :
      Reading (major ++ '.' :: minor) ('.' :: patch ++ rest)

/-- Behind two numbers the third one decides, if the version can end where it ends. -/
theorem bannerTail?_of_numbers (hmajor : IsNumeral major) (hminor : IsNumeral minor)
    (hends : EndsNumber rest) :
    bannerTail? (major ++ ('.' :: minor ++ rest)) =
      ((pointNumber? rest).bind fun (patch, rest) => finish? (major ++ '.' :: minor ++ patch) rest).or
        (finish? (major ++ '.' :: minor) rest) := by
  have hfirst : number? (major ++ ('.' :: minor ++ rest)) = some (major, '.' :: minor ++ rest) :=
    number?_eq_some_iff.mpr ⟨hmajor, (endsWord_point _).endsNumber, rfl⟩
  have hsecond : pointNumber? ('.' :: minor ++ rest) = some ('.' :: minor, rest) :=
    pointNumber?_eq_some_iff.mpr ⟨minor, hminor, hends, rfl, rfl⟩
  unfold bannerTail?
  rw [hfirst]
  show ((pointNumber? ('.' :: minor ++ rest)).bind fun (minor, rest) =>
    ((pointNumber? rest).bind fun (patch, rest) => finish? (major ++ minor ++ patch) rest).or
      (finish? (major ++ minor) rest)) = _
  rw [hsecond]
  rfl

theorem bannerTail?_of_reading (h : Reading v after) : bannerTail? (v ++ after) = some v := by
  cases h with
  | @patched major minor patch mark _ hmajor hminor hpatch hmark hends =>
    have htext : major ++ '.' :: minor ++ '.' :: patch ++ mark ++ after =
        major ++ ('.' :: minor ++ ('.' :: patch ++ (mark ++ after))) := by simp
    have hsecond : EndsNumber ('.' :: patch ++ (mark ++ after)) := (endsWord_point _).endsNumber
    have hthird : pointNumber? ('.' :: patch ++ (mark ++ after)) = some ('.' :: patch, mark ++ after) :=
      pointNumber?_eq_some_iff.mpr ⟨patch, hpatch, hmark.endsNumber hends, rfl, rfl⟩
    rw [htext, bannerTail?_of_numbers hmajor hminor hsecond, hthird, Option.bind_some]
    refine Option.or_eq_some_iff.mpr (.inl ?_)
    exact finish?_eq_some_iff.mpr ⟨mark, after, hmark, hends, rfl, rfl⟩
  | @plain major minor mark _ hmajor hminor hmark hends hpoint =>
    have htext : major ++ '.' :: minor ++ mark ++ after =
        major ++ ('.' :: minor ++ (mark ++ after)) := by simp
    rw [htext, bannerTail?_of_numbers hmajor hminor (hmark.endsNumber hends),
      pointNumber?_eq_none hpoint]
    exact finish?_eq_some_iff.mpr ⟨mark, after, hmark, hends, rfl, rfl⟩
  | @cut major minor patch rest hmajor hminor hpatch hends hrest =>
    have htext : major ++ '.' :: minor ++ ('.' :: patch ++ rest) =
        major ++ ('.' :: minor ++ ('.' :: patch ++ rest)) := by simp
    have hsecond : EndsWord ('.' :: patch ++ rest) := endsWord_point _
    have hthird : pointNumber? ('.' :: patch ++ rest) = some ('.' :: patch, rest) :=
      pointNumber?_eq_some_iff.mpr ⟨patch, hpatch, hends, rfl, rfl⟩
    rw [htext, bannerTail?_of_numbers hmajor hminor hsecond.endsNumber, hthird, Option.bind_some]
    dsimp only
    rw [finish?_eq_none_iff.mpr hrest]
    exact finish?_eq_some_iff.mpr ⟨[], _, .inl rfl, hsecond, rfl, (List.append_nil _).symm⟩

/-- A point and a digit begin a point and a longest run of digits. -/
theorem PointAhead.exists_numeral (h : PointAhead cs) :
    ∃ ds rest, IsNumeral ds ∧ EndsNumber rest ∧ cs = '.' :: ds ++ rest := by
  obtain ⟨d, more, hdigit, rfl⟩ := h
  cases hnumber : number? (d :: more) with
  | none =>
    unfold number? at hnumber
    rw [List.takeWhile_cons_of_pos hdigit] at hnumber
    contradiction
  | some piece =>
    obtain ⟨hnumeral, hends, htext⟩ := number?_eq_some_iff.mp hnumber
    exact ⟨piece.1, piece.2, hnumeral, hends, congrArg ('.' :: ·) htext⟩

/-- A reading begins with two numbers. -/
theorem exists_numbers_of_bannerTail? (h : bannerTail? cs = some v) :
    ∃ major minor rest, IsNumeral major ∧ IsNumeral minor ∧ EndsNumber rest ∧
      cs = major ++ ('.' :: minor ++ rest) := by
  obtain ⟨first, hfirst, h⟩ := Option.bind_eq_some_iff.mp h
  obtain ⟨second, hsecond, -⟩ := Option.bind_eq_some_iff.mp h
  obtain ⟨hmajor, -, htext⟩ := number?_eq_some_iff.mp hfirst
  obtain ⟨minor, hminor, hends, hpoint, hrest⟩ := pointNumber?_eq_some_iff.mp hsecond
  refine ⟨first.1, minor, second.2, hmajor, hminor, hends, ?_⟩
  rw [htext, hrest, hpoint]

theorem exists_reading_of_bannerTail? (h : bannerTail? cs = some v) :
    ∃ after, cs = v ++ after ∧ Reading v after := by
  obtain ⟨major, minor, rest, hmajor, hminor, hends, rfl⟩ := exists_numbers_of_bannerTail? h
  rw [bannerTail?_of_numbers hmajor hminor hends] at h
  rcases Option.or_eq_some_iff.mp h with h | ⟨hnone, h⟩
  · obtain ⟨third, hthird, hfinish⟩ := Option.bind_eq_some_iff.mp h
    obtain ⟨patch, hpatch, -, hpoint, rfl⟩ := pointNumber?_eq_some_iff.mp hthird
    obtain ⟨mark, left, hmark, hends, hleft, rfl⟩ := finish?_eq_some_iff.mp hfinish
    rw [hpoint, hleft]
    exact ⟨left, by simp, .patched hmajor hminor hpatch hmark hends⟩
  · obtain ⟨mark, left, hmark, hleft, rfl, rfl⟩ := finish?_eq_some_iff.mp h
    by_cases hpoint : PointAhead (mark ++ left)
    · obtain ⟨patch, rest, hpatch, hstop, htext⟩ := hpoint.exists_numeral
      have hthird : pointNumber? (mark ++ left) = some ('.' :: patch, rest) :=
        pointNumber?_eq_some_iff.mpr ⟨patch, hpatch, hstop, rfl, htext⟩
      rw [hthird, Option.bind_some] at hnone
      have hrest := finish?_eq_none_iff.mp hnone
      by_cases hne : mark = []
      · subst hne
        rw [List.nil_append] at htext
        rw [htext, List.append_nil, List.nil_append]
        exact ⟨'.' :: patch ++ rest, by simp, .cut hmajor hminor hpatch hstop hrest⟩
      · -- a mark does not begin with a point
        have hword := hmark.not_endsWord hne left
        rw [htext] at hword
        exact absurd (endsWord_point _) hword
    · exact ⟨left, by simp, .plain hmajor hminor hmark hleft hpoint⟩

/-- The readings are what the reader comes to, and a text has one at most. -/
theorem bannerTail?_eq_some_iff :
    bannerTail? cs = some v ↔ ∃ after, cs = v ++ after ∧ Reading v after := by
  constructor
  · exact exists_reading_of_bannerTail?
  · rintro ⟨after, rfl, h⟩
    exact bannerTail?_of_reading h

theorem bannerTail?_append_iff : bannerTail? (version ++ after) = some version ↔ Reading version after := by
  rw [bannerTail?_eq_some_iff]
  constructor
  · rintro ⟨rest, htext, h⟩
    rw [List.append_cancel_left htext]
    exact h
  · intro h
    exact ⟨after, rfl, h⟩

instance : Decidable (Reading version after) := decidable_of_iff _ bannerTail?_append_iff

theorem Reading.unique {v' after' : List Char} (h : Reading v after) (h' : Reading v' after')
    (htext : v ++ after = v' ++ after') : v = v' ∧ after = after' := by
  have hread := bannerTail?_of_reading h
  rw [htext, bannerTail?_of_reading h'] at hread
  obtain rfl := Option.some.inj hread
  exact ⟨rfl, List.append_cancel_left htext⟩

/-! ## The search -/

/-- In a text that follows the character `previous` a version stands here: behind the letters, which
begin a word, and before `after`. -/
structure StandsAt (previous : Option Char) (cs before version after : List Char) : Prop where
  text : cs = before ++ 'g' :: 'o' :: (version ++ after)
  start : isWordAt (before.getLast?.or previous) = false
  reading : Reading version after

/-- The first place where a version stands. -/
structure FoundAt (previous : Option Char) (cs before version after : List Char) : Prop where
  stands : StandsAt previous cs before version after
  first : ∀ before' version' after', StandsAt previous cs before' version' after' →
    before.length ≤ before'.length

variable {previous : Option Char} {c : Char} {before : List Char}

/-- The character before a place, if another one comes to stand at the front. -/
theorem getLast?_cons_or (c : Char) (cs : List Char) (previous : Option Char) :
    (c :: cs).getLast?.or previous = cs.getLast?.or (some c) := by
  rw [List.getLast?_cons]
  cases cs.getLast? <;> rfl

theorem standsAt_cons_iff :
    StandsAt previous (c :: cs) (c :: before) version after ↔
      StandsAt (some c) cs before version after := by
  have hlast := getLast?_cons_or c before previous
  constructor
  · rintro ⟨htext, hstart, hreading⟩
    exact ⟨(List.cons.inj htext).2, hlast ▸ hstart, hreading⟩
  · rintro ⟨rfl, hstart, hreading⟩
    exact ⟨rfl, hlast ▸ hstart, hreading⟩

theorem searchBanner_of_standsAt (h : StandsAt previous cs [] v after) :
    searchBanner previous cs = some v := by
  obtain ⟨rfl, hstart, hreading⟩ := h
  have hword : isWordAt previous = false := hstart
  have hhere : (if isWordAt previous then none else bannerTail? (v ++ after)) = some v := by
    rw [hword, bannerTail?_of_reading hreading]
    rfl
  rw [List.nil_append, searchBanner]
  simp only [hhere]

/-- Where no version stands the search goes on behind the next character. -/
theorem searchBanner_cons (h : ¬ ∃ v after, StandsAt previous (c :: cs) [] v after) :
    searchBanner previous (c :: cs) = searchBanner (some c) cs := by
  rw [searchBanner.eq_def]
  dsimp only
  split
  · rename_i v hhere
    split at hhere
    · rename_i rest htext
      split at hhere
      · contradiction
      · rename_i hword
        obtain ⟨after, rfl, hreading⟩ := bannerTail?_eq_some_iff.mp hhere
        exact absurd ⟨v, after, htext, Bool.not_eq_true _ ▸ hword, hreading⟩ h
    · contradiction
  · rfl

/-- The first place is behind the next character if no version stands here. -/
theorem foundAt_cons_iff (h : ¬ ∃ v after, StandsAt previous (c :: cs) [] v after) :
    FoundAt previous (c :: cs) before version after ↔
      ∃ more, before = c :: more ∧ FoundAt (some c) cs more version after := by
  have hmoved : ∀ {before version after}, StandsAt previous (c :: cs) before version after →
      ∃ more, before = c :: more ∧ StandsAt (some c) cs more version after := by
    intro before version after hstands
    cases before with
    | nil => exact absurd ⟨version, after, hstands⟩ h
    | cons d more =>
      obtain rfl : c = d := (List.cons.inj hstands.text).1
      exact ⟨more, rfl, standsAt_cons_iff.mp hstands⟩
  constructor
  · rintro ⟨hstands, hfirst⟩
    obtain ⟨more, rfl, hmore⟩ := hmoved hstands
    refine ⟨more, rfl, hmore, ?_⟩
    intro before' version' after' hstands'
    exact Nat.le_of_succ_le_succ (hfirst _ version' after' (standsAt_cons_iff.mpr hstands'))
  · rintro ⟨more, rfl, hmore, hfirst⟩
    refine ⟨standsAt_cons_iff.mpr hmore, ?_⟩
    intro before' version' after' hstands'
    obtain ⟨more', rfl, hmore'⟩ := hmoved hstands'
    exact Nat.succ_le_succ (hfirst more' version' after' hmore')

/-- The search finds the first version, by induction on the text: a place in the rest of the text is one
in the whole text, one character further. -/
theorem searchBanner_eq_some_iff :
    searchBanner previous cs = some v ↔ ∃ before after, FoundAt previous cs before v after := by
  induction cs generalizing previous with
  | nil =>
    constructor
    · intro h
      rw [searchBanner] at h
      contradiction
    · rintro ⟨before, after, ⟨htext, -, -⟩, -⟩
      simp at htext
  | cons c cs ih =>
    by_cases hhere : ∃ w after, StandsAt previous (c :: cs) [] w after
    · obtain ⟨w, after, hw⟩ := hhere
      rw [searchBanner_of_standsAt hw]
      constructor
      · intro h
        obtain rfl := Option.some.inj h
        exact ⟨[], after, hw, fun _ _ _ _ => Nat.zero_le _⟩
      · rintro ⟨before, after', hv, hfirst⟩
        obtain rfl := List.eq_nil_of_length_eq_zero (Nat.le_zero.mp (hfirst [] w after hw))
        have htext : w ++ after = v ++ after' := by
          have hsame := hw.text.symm.trans hv.text
          exact (List.cons.inj (List.cons.inj hsame).2).2
        rw [(hw.reading.unique hv.reading htext).1]
    · rw [searchBanner_cons hhere, ih]
      constructor
      · rintro ⟨more, after, hmore⟩
        exact ⟨c :: more, after, (foundAt_cons_iff hhere).mpr ⟨more, rfl, hmore⟩⟩
      · rintro ⟨before, after, hbefore⟩
        obtain ⟨more, -, hmore⟩ := (foundAt_cons_iff hhere).mp hbefore
        exact ⟨more, after, hmore⟩

theorem banner?_eq_some_iff {output version : String} :
    banner? output = some version ↔
      ∃ before after, FoundAt none output.toList before version.toList after := by
  rw [← searchBanner_eq_some_iff, banner?, Option.map_eq_some_iff]
  constructor
  · rintro ⟨v, hv, rfl⟩
    rw [String.toList_ofList]
    exact hv
  · intro h
    exact ⟨version.toList, h, String.ofList_toList⟩

/-! ## Behind the greeting -/

/-- Nothing is found where the first of the letters does not occur. -/
theorem foundAt_append {skipped : List Char} (hskipped : 'g' ∉ skipped)
    (h : FoundAt (skipped.getLast?.or previous) cs before version after) :
    FoundAt previous (skipped ++ cs) (skipped ++ before) version after := by
  induction skipped generalizing previous with
  | nil => exact h
  | cons c skipped ih =>
    have hhere : ¬ ∃ v after, StandsAt previous (c :: (skipped ++ cs)) [] v after := by
      rintro ⟨v, after, htext, -, -⟩
      obtain rfl : c = 'g' := (List.cons.inj htext).1
      exact hskipped List.mem_cons_self
    rw [getLast?_cons_or] at h
    have hmore := ih (List.not_mem_of_not_mem_cons hskipped) h
    exact (foundAt_cons_iff hhere).mpr ⟨skipped ++ before, rfl, hmore⟩

theorem Reading.exists_head (h : Reading version after) :
    ∃ d rest, isDecimalDigit d = true ∧ version ++ after = d :: rest := by
  obtain ⟨major, minor, rest, hmajor, -, -, htext⟩ :=
    exists_numbers_of_bannerTail? (bannerTail?_of_reading h)
  obtain ⟨d, more, hdigit, rfl⟩ := hmajor.exists_cons
  exact ⟨d, more ++ ('.' :: minor ++ rest), hdigit, htext⟩

/-- What a toolchain writes before its version. The first word begins with the letters as well, but no
number follows them there. -/
def greeting : List Char := "go version ".toList

theorem foundAt_greeting (h : Reading version after) :
    FoundAt none (greeting ++ 'g' :: 'o' :: (version ++ after)) greeting version after := by
  have hfirst : ¬ ∃ v rest, StandsAt none
      (greeting ++ 'g' :: 'o' :: (version ++ after)) [] v rest := by
    rintro ⟨v, rest, htext, -, hreading⟩
    obtain ⟨d, more, hdigit, hhead⟩ := hreading.exists_head
    rw [hhead] at htext
    obtain rfl : ' ' = d := (List.cons.inj (List.cons.inj (List.cons.inj htext).2).2).1
    contradiction
  have hrest : FoundAt (some 'g') ("o version ".toList ++ 'g' :: 'o' :: (version ++ after))
      ("o version ".toList ++ []) version after :=
    foundAt_append (by decide) ⟨⟨rfl, rfl, h⟩, fun _ _ _ _ => Nat.zero_le _⟩
  exact (foundAt_cons_iff hfirst).mpr ⟨_, rfl, hrest⟩

end ToolchainChoice.Installation
