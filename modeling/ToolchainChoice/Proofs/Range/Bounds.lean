import ToolchainChoice.Proofs.Text.Digits
import ToolchainChoice.Proofs.Version.Characters
import ToolchainChoice.Proofs.Version.DottedNumbers
import ToolchainChoice.Proofs.Version.Texts

/-!
# The bounds that make a range

Which two texts make a range, and what is reported of two that do not. A bound is looked at twice.
Its form is checked first: digits of any script count there, and a line feed may follow. It is then
read as a version, where only ASCII digits count and a number can be too long. The two ways of looking
at a text agree on plain bounds of moderate length. They do not agree on the others that pass the
check of the form: some are accepted all the same, and some fail later and for another reason than
the form (`Slips`).
-/
namespace ToolchainChoice.SupportedRange

open Text (isDecimalDigit)
open Version (MajorMinor IsRun dotted majorMinorOf)
open Number (digitLimit digitsValue)

variable {text min max : String} {major minor : List Char} {m l u : MajorMinor} {e : Failure}
variable {store : Store}

/-! ## The form of a bound -/

/-- Decimal digits of whatever script, one at least. -/
def IsNumeral (ds : List Char) : Prop := ds ≠ [] ∧ ∀ c ∈ ds, isDecimalDigit c = true

/-- The text is these two runs with a point between them, with or without a line feed at the end. -/
def IsPointed (text : String) (major minor : List Char) : Prop :=
  text.toList = dotted major [minor] ∨ text.toList = dotted major [minor] ++ ['\n']

/-- The text passes for a bound by its form. -/
def HasBoundForm (text : String) : Prop :=
  ∃ major minor, IsNumeral major ∧ IsNumeral minor ∧ IsPointed text major minor

theorem IsNumeral.of_isRun {ds : List Char} (h : IsRun ds) : IsNumeral ds :=
  ⟨h.1, fun c hc => Text.isDecimalDigit_of_isDigit (h.2 c hc)⟩

theorem IsNumeral.exists_cons {ds : List Char} (h : IsNumeral ds) :
    ∃ d more, isDecimalDigit d = true ∧ ds = d :: more := by
  obtain ⟨d, more, rfl⟩ := List.exists_cons_of_ne_nil h.1
  exact ⟨d, more, h.2 d List.mem_cons_self, rfl⟩

theorem hasBoundForm_of_isRun (hmajor : IsRun major) (hminor : IsRun minor)
    (h : IsPointed text major minor) : HasBoundForm text :=
  ⟨major, minor, .of_isRun hmajor, .of_isRun hminor, h⟩

theorem dotted_pair (major minor : List Char) : dotted major [minor] = major ++ '.' :: minor := by
  simp [dotted]

theorem IsPointed.mem (h : IsPointed text major minor) {c : Char} (hc : c ∈ major ∨ c ∈ minor) :
    c ∈ text.toList := by
  rcases h with htext | htext
  · rw [htext, dotted_pair]
    rcases hc with hc | hc <;> simp [hc]
  · rw [htext, dotted_pair]
    rcases hc with hc | hc <;> simp [hc]

theorem isBound_pair {rest : List Char} (hmajor : IsNumeral major) (hminor : IsNumeral minor)
    (hrest : rest = [] ∨ rest = ['\n']) : isBound (dotted major [minor] ++ rest) = true := by
  have hstop : rest.takeWhile isDecimalDigit = [] ∧ rest.dropWhile isDecimalDigit = rest := by
    rcases hrest with rfl | rfl <;> decide
  have hpoint : isDecimalDigit '.' = false := by decide
  have htake : (major ++ '.' :: (minor ++ rest)).takeWhile isDecimalDigit = major := by
    rw [List.takeWhile_append_of_pos hmajor.2]
    simp [hpoint]
  have hdrop : (major ++ '.' :: (minor ++ rest)).dropWhile isDecimalDigit = '.' :: (minor ++ rest) := by
    rw [List.dropWhile_append_of_pos hmajor.2]
    simp [hpoint]
  rw [dotted_pair, List.append_assoc, List.cons_append, isBound, htake, hdrop]
  show (!major.isEmpty && !((minor ++ rest).takeWhile isDecimalDigit).isEmpty &&
    ((minor ++ rest).dropWhile isDecimalDigit == [] ||
      (minor ++ rest).dropWhile isDecimalDigit == ['\n'])) = true
  rw [List.takeWhile_append_of_pos hminor.2, List.dropWhile_append_of_pos hminor.2, hstop.1, hstop.2,
    List.append_nil]
  have hmajor' : major.isEmpty = false := List.isEmpty_eq_false_iff.mpr hmajor.1
  have hminor' : minor.isEmpty = false := List.isEmpty_eq_false_iff.mpr hminor.1
  rw [hmajor', hminor']
  rcases hrest with rfl | rfl <;> rfl

/-- The check lets pass exactly the texts of this form. -/
theorem isBound_eq_true_iff : isBound text.toList = true ↔ HasBoundForm text := by
  constructor
  · intro h
    unfold isBound at h
    dsimp only at h
    split at h
    · rename_i rest hafter
      simp only [Bool.and_eq_true, Bool.or_eq_true, beq_iff_eq, Bool.not_eq_true',
        List.isEmpty_eq_false_iff] at h
      obtain ⟨⟨hmajor, hminor⟩, hrest⟩ := h
      have htext : text.toList = dotted (text.toList.takeWhile isDecimalDigit)
          [rest.takeWhile isDecimalDigit] ++ rest.dropWhile isDecimalDigit := by
        rw [dotted_pair, List.append_assoc, List.cons_append, List.takeWhile_append_dropWhile,
          ← hafter, List.takeWhile_append_dropWhile]
      refine ⟨_, _, ⟨hmajor, List.all_eq_true.mp List.all_takeWhile⟩,
        ⟨hminor, List.all_eq_true.mp List.all_takeWhile⟩, ?_⟩
      rcases hrest with hnil | hfeed
      · rw [hnil, List.append_nil] at htext
        exact .inl htext
      · rw [hfeed] at htext
        exact .inr htext
    · contradiction
  · rintro ⟨major, minor, hmajor, hminor, htext | htext⟩
    · rw [htext, ← List.append_nil (dotted _ _)]
      exact isBound_pair hmajor hminor (.inl rfl)
    · rw [htext]
      exact isBound_pair hmajor hminor (.inr rfl)

/-! ## The numbers of a bound -/

/-- A bound as it is meant to be: ASCII digits, a point and ASCII digits, and nothing else. -/
def IsPlainBound (text : String) (m : MajorMinor) : Prop :=
  ∃ major minor, IsRun major ∧ IsRun minor ∧ text.toList = dotted major [minor] ∧
    m = ⟨digitsValue major, digitsValue minor⟩

/-- What is accepted as a bound: a line feed may follow, and neither number is too long. -/
def IsReadBound (text : String) (m : MajorMinor) : Prop :=
  ∃ major minor, IsRun major ∧ IsRun minor ∧ IsPointed text major minor ∧
    major.length ≤ digitLimit ∧ minor.length ≤ digitLimit ∧
    m = ⟨digitsValue major, digitsValue minor⟩

/-- Why a text that has the form of a bound cannot be read. -/
inductive Unread (text : String) : Failure → Prop
  /-- A digit in it is none for a version. -/
  | foreign {c : Char} (form : HasBoundForm text) (mem : c ∈ text.toList)
      (digit : isDecimalDigit c = true) (high : c.isDigit = false) :
      Unread text (.invalidVersion (Text.quoted text))
  | overlong {major minor : List Char} (hmajor : IsRun major) (hminor : IsRun minor)
      (form : IsPointed text major minor)
      (long : digitLimit < major.length ∨ digitLimit < minor.length) : Unread text .numberTooLong

theorem ofText?_of_isPointed (hmajor : IsRun major) (hminor : IsRun minor)
    (h : IsPointed text major minor) :
    Version.Written.ofText? text.toList =
      some { epoch := [], major := major, more := [minor] } := by
  have hmore : ∀ ds ∈ [minor], IsRun ds := fun ds hds => List.mem_singleton.mp hds ▸ hminor
  rcases h with htext | htext
  · rw [htext]
    exact Version.Written.ofText?_dotted hmajor hmore
  · have hblank : ∀ c ∈ ['\n'], Text.isBlank c = true := by
      intro c hc
      rw [List.mem_singleton.mp hc]
      rfl
    rw [htext, Version.Written.ofText?_append_blanks hblank]
    exact Version.Written.ofText?_dotted hmajor hmore

theorem IsReadBound.majorMinorOf_eq (h : IsReadBound text m) : majorMinorOf text = .ok m := by
  obtain ⟨major, minor, hmajor, hminor, hform, hfit, hfit', rfl⟩ := h
  have hread := Version.read_of_digitsFit (ofText?_of_isPointed hmajor hminor hform) (by
    intro ds hds
    have hds' : ds = [] ∨ ds = major ∨ ds = minor := by
      simpa [Version.Parts.numbers, Version.Parts.release] using hds
    rcases hds' with rfl | rfl | rfl
    · exact Nat.zero_le _
    · exact hfit
    · exact hfit')
  exact Version.majorMinorOf_eq_ok_iff.mpr ⟨_, hread, rfl⟩

theorem IsReadBound.hasBoundForm (h : IsReadBound text m) : HasBoundForm text := by
  obtain ⟨major, minor, hmajor, hminor, hform, -⟩ := h
  exact hasBoundForm_of_isRun hmajor hminor hform

theorem Unread.hasBoundForm (h : Unread text e) : HasBoundForm text := by
  cases h with
  | foreign form => exact form
  | overlong hmajor hminor form => exact hasBoundForm_of_isRun hmajor hminor form

theorem Unread.majorMinorOf_eq (h : Unread text e) : majorMinorOf text = .error e := by
  cases h with
  | @foreign c form mem digit high =>
    apply Version.majorMinorOf_of_malformed
    unfold Version.read Version.ofChars
    cases hw : Version.Written.ofText? text.toList with
    | none => rfl
    | some w =>
      rw [Version.Written.isDigit_of_ofText? hw mem digit] at high
      contradiction
  | @overlong major minor hmajor hminor form long =>
    apply Version.majorMinorOf_of_numberTooLong
    refine Version.read_eq_numberTooLong_iff.mpr ⟨_, ofText?_of_isPointed hmajor hminor form, ?_⟩
    rcases long with hlong | hlong
    · exact ⟨major, by simp [Version.Parts.numbers, Version.Parts.release], hlong⟩
    · exact ⟨minor, by simp [Version.Parts.numbers, Version.Parts.release], hlong⟩

/-- A text of the right form is read, or cannot be for one of two reasons. -/
theorem HasBoundForm.read_or_unread (h : HasBoundForm text) :
    (∃ m, IsReadBound text m) ∨ ∃ e, Unread text e := by
  obtain ⟨major, minor, hmajor, hminor, hform⟩ := h
  by_cases hforeign : ∃ c ∈ text.toList, isDecimalDigit c = true ∧ c.isDigit = false
  · obtain ⟨c, hc, hdigit, hhigh⟩ := hforeign
    exact .inr ⟨_, .foreign ⟨major, minor, hmajor, hminor, hform⟩ hc hdigit hhigh⟩
  · have hdigits : ∀ c ∈ text.toList, isDecimalDigit c = true → c.isDigit = true := by
      intro c hc hdigit
      cases hcase : c.isDigit with
      | true => rfl
      | false => exact absurd ⟨c, hc, hdigit, hcase⟩ hforeign
    have hmajor' : IsRun major :=
      ⟨hmajor.1, fun c hc => hdigits c (hform.mem (.inl hc)) (hmajor.2 c hc)⟩
    have hminor' : IsRun minor :=
      ⟨hminor.1, fun c hc => hdigits c (hform.mem (.inr hc)) (hminor.2 c hc)⟩
    by_cases hfit : major.length ≤ digitLimit
    · by_cases hfit' : minor.length ≤ digitLimit
      · exact .inl ⟨_, major, minor, hmajor', hminor', hform, hfit, hfit', rfl⟩
      · exact .inr ⟨_, .overlong hmajor' hminor' hform (.inr (Nat.lt_of_not_le hfit'))⟩
    · exact .inr ⟨_, .overlong hmajor' hminor' hform (.inl (Nat.lt_of_not_le hfit))⟩

/-! ## The range between two bounds -/

/-- What is reported of two texts that make no range. The form of both is checked before either is
read, and both are read before they are compared. -/
inductive Refused (min max : String) : Failure → Prop
  | minForm (h : ¬ HasBoundForm min) :
      Refused min max (.configuration (.invalidBound (Text.quoted min)))
  | maxForm (hmin : HasBoundForm min) (h : ¬ HasBoundForm max) :
      Refused min max (.configuration (.invalidBound (Text.quoted max)))
  | minUnread {e : Failure} (h : Unread min e) (hmax : HasBoundForm max) : Refused min max e
  | maxUnread {l : MajorMinor} {e : Failure} (hmin : IsReadBound min l) (h : Unread max e) :
      Refused min max e
  | reversed {l u : MajorMinor} (hmin : IsReadBound min l) (hmax : IsReadBound max u) (h : u < l) :
      Refused min max (.configuration (.boundsReversed min max))

theorem boundOf_of_hasBoundForm (store : Store) (h : HasBoundForm text) :
    boundOf store (.text text) = .ok text := by
  simp only [boundOf, if_pos (isBound_eq_true_iff.mpr h)]

theorem boundOf_of_not_hasBoundForm (store : Store) (h : ¬ HasBoundForm text) :
    boundOf store (.text text) = .error (.configuration (.invalidBound (Text.quoted text))) := by
  simp only [boundOf, if_neg (fun hb => h (isBound_eq_true_iff.mp hb))]
  rfl

/-- A text with half a character in it is refused as every text of another form is. -/
theorem boundOf_broken (store : Store) (t : Text.Broken) :
    boundOf store (.broken t) =
      .error (.configuration (.invalidBound (String.ofList (Text.Symbol.quoted t.symbols)))) := rfl

theorem ofValues_of_min_error (store : Store) (hmin : HasBoundForm min) (hmax : HasBoundForm max)
    (h : majorMinorOf min = .error e) : ofValues store (.text min) (.text max) = .error e := by
  simp only [ofValues, boundOf_of_hasBoundForm store hmin, boundOf_of_hasBoundForm store hmax]
  split
  · rename_i e' he
    obtain rfl := Except.error.inj (h.symm.trans he)
    rfl
  · rename_i hl hu
    rw [h] at hl
    contradiction
  · rename_i hl hu
    rw [h] at hl
    contradiction

theorem ofValues_of_max_error (store : Store) (hmin : HasBoundForm min) (hmax : HasBoundForm max)
    (hl : majorMinorOf min = .ok l) (h : majorMinorOf max = .error e) :
    ofValues store (.text min) (.text max) = .error e := by
  simp only [ofValues, boundOf_of_hasBoundForm store hmin, boundOf_of_hasBoundForm store hmax]
  split
  · rename_i he
    rw [hl] at he
    contradiction
  · rename_i e' hl' he
    obtain rfl := Except.error.inj (h.symm.trans he)
    rfl
  · rename_i hl' hu
    rw [h] at hu
    contradiction

/-- Of two bounds that can be read only the order still matters. -/
theorem ofValues_of_readBounds (store : Store) (hmin : IsReadBound min l) (hmax : IsReadBound max u) :
    (l ≤ u → ∃ r, ofValues store (.text min) (.text max) = .ok r) ∧
      (u < l → ofValues store (.text min) (.text max) =
        .error (.configuration (.boundsReversed min max))) := by
  have hl := hmin.majorMinorOf_eq
  have hu := hmax.majorMinorOf_eq
  simp only [ofValues, boundOf_of_hasBoundForm store hmin.hasBoundForm,
    boundOf_of_hasBoundForm store hmax.hasBoundForm]
  split
  · rename_i he
    rw [hl] at he
    contradiction
  · rename_i he
    rw [hu] at he
    contradiction
  · rename_i l' u' hl' hu'
    obtain rfl := except_ok_unique hl hl'
    obtain rfl := except_ok_unique hu hu'
    refine ⟨fun hle => ?_, fun hlt => ?_⟩
    · rw [dif_pos hle]
      exact ⟨_, rfl⟩
    · rw [dif_neg (MajorMinor.not_le.mpr hlt)]

theorem ofValues_of_refused (store : Store) (h : Refused min max e) :
    ofValues store (.text min) (.text max) = .error e := by
  cases h with
  | minForm h => simp only [ofValues, boundOf_of_not_hasBoundForm store h]
  | maxForm hmin h =>
    simp only [ofValues, boundOf_of_hasBoundForm store hmin, boundOf_of_not_hasBoundForm store h]
  | minUnread h hmax => exact ofValues_of_min_error store h.hasBoundForm hmax h.majorMinorOf_eq
  | maxUnread hmin h =>
    exact ofValues_of_max_error store hmin.hasBoundForm h.hasBoundForm hmin.majorMinorOf_eq
      h.majorMinorOf_eq
  | reversed hmin hmax h => exact (ofValues_of_readBounds store hmin hmax).2 h

/-- Two texts make a range, or there is a reason why they do not. -/
theorem readBounds_or_refused (min max : String) :
    (∃ l u, IsReadBound min l ∧ IsReadBound max u ∧ l ≤ u) ∨ ∃ e, Refused min max e := by
  by_cases hmin : HasBoundForm min
  · by_cases hmax : HasBoundForm max
    · rcases hmin.read_or_unread with ⟨l, hl⟩ | ⟨e, he⟩
      · rcases hmax.read_or_unread with ⟨u, hu⟩ | ⟨e, he⟩
        · by_cases hle : l ≤ u
          · exact .inl ⟨l, u, hl, hu, hle⟩
          · exact .inr ⟨_, .reversed hl hu (MajorMinor.not_le.mp hle)⟩
        · exact .inr ⟨e, .maxUnread hl he⟩
      · exact .inr ⟨e, .minUnread he hmax⟩
    · exact .inr ⟨_, .maxForm hmin hmax⟩
  · exact .inr ⟨_, .minForm hmin⟩

theorem ofValues_eq_error_iff :
    ofValues store (.text min) (.text max) = .error e ↔ Refused min max e := by
  constructor
  · intro h
    rcases readBounds_or_refused min max with ⟨l, u, hl, hu, hle⟩ | ⟨e', he⟩
    · obtain ⟨r, hr⟩ := (ofValues_of_readBounds store hl hu).1 hle
      rw [hr] at h
      contradiction
    · obtain rfl := Except.error.inj ((ofValues_of_refused store he).symm.trans h)
      exact he
  · exact ofValues_of_refused store

theorem exists_ofValues_iff :
    (∃ r, ofValues store (.text min) (.text max) = .ok r) ↔
      ∃ l u, IsReadBound min l ∧ IsReadBound max u ∧ l ≤ u := by
  constructor
  · rintro ⟨r, hr⟩
    rcases readBounds_or_refused min max with hread | ⟨e, he⟩
    · exact hread
    · rw [ofValues_of_refused store he] at hr
      contradiction
  · rintro ⟨l, u, hl, hu, hle⟩
    exact (ofValues_of_readBounds store hl hu).1 hle

/-- A value is taken as a bound if it is a text of the form of one. -/
theorem boundOf_eq_ok_iff {v : Value} :
    boundOf store v = .ok text ↔ v = .text text ∧ HasBoundForm text := by
  have hrefuse : ∀ v : Value, boundOf.refuse store v ≠ .ok text := by
    intro v h
    obtain ⟨shown, -, h⟩ := except_bind_eq_ok_iff.mp h
    contradiction
  constructor
  · intro h
    unfold boundOf at h
    split at h
    · rename_i s
      split at h
      · rename_i hform
        obtain rfl := Except.ok.inj h
        exact ⟨rfl, isBound_eq_true_iff.mp hform⟩
      · exact absurd h (hrefuse _)
    · exact absurd h (hrefuse _)
  · rintro ⟨rfl, hform⟩
    exact boundOf_of_hasBoundForm store hform

/-- A range is made from the texts of its bounds and from nothing else. -/
theorem ofValues_eq_ok_iff {r : SupportedRange} {a b : Value} :
    ofValues store a b = .ok r ↔
      a = .text r.min ∧ b = .text r.max ∧ HasBoundForm r.min ∧ HasBoundForm r.max := by
  constructor
  · intro h
    unfold ofValues at h
    split at h
    · contradiction
    · contradiction
    · rename_i min max hmin hmax
      obtain ⟨rfl, hminForm⟩ := boundOf_eq_ok_iff.mp hmin
      obtain ⟨rfl, hmaxForm⟩ := boundOf_eq_ok_iff.mp hmax
      split at h
      · contradiction
      · contradiction
      · split at h
        · obtain rfl := Except.ok.inj h
          exact ⟨rfl, rfl, hminForm, hmaxForm⟩
        · contradiction
  · rintro ⟨rfl, rfl, hmin, hmax⟩
    simp only [ofValues, boundOf_of_hasBoundForm store hmin, boundOf_of_hasBoundForm store hmax]
    split
    · rename_i he
      rw [r.min_eq] at he
      contradiction
    · rename_i he
      rw [r.max_eq] at he
      contradiction
    · rename_i lower upper hlower hupper
      obtain rfl := except_ok_unique r.min_eq hlower
      obtain rfl := except_ok_unique r.max_eq hupper
      rw [dif_pos r.lower_le_upper]

/-! ## Where form and reading part -/

/-- The form of the text passes although a line feed follows, or although it cannot be read. -/
inductive Slips (text : String) : Prop
  | lineFeed {major minor : List Char} (hmajor : IsRun major) (hminor : IsRun minor)
      (h : text.toList = dotted major [minor] ++ ['\n'])
  | unread {e : Failure} (h : Unread text e)

/-- Apart from these texts, what is accepted as a bound is what a bound is meant to be. -/
theorem isReadBound_iff_of_not_slips (h : ¬ Slips text) : IsReadBound text m ↔ IsPlainBound text m := by
  constructor
  · rintro ⟨major, minor, hmajor, hminor, hform | hform, -, -, hm⟩
    · exact ⟨major, minor, hmajor, hminor, hform, hm⟩
    · exact absurd (.lineFeed hmajor hminor hform) h
  · rintro ⟨major, minor, hmajor, hminor, hform, hm⟩
    by_cases hlong : digitLimit < major.length ∨ digitLimit < minor.length
    · exact absurd (.unread (.overlong hmajor hminor (.inl hform) hlong)) h
    · exact ⟨major, minor, hmajor, hminor, .inl hform, by omega, by omega, hm⟩

/-- A text that can be read and holds no line feed is none of these. -/
theorem not_slips_of_majorMinorOf (h : majorMinorOf text = .ok m) (hfeed : '\n' ∉ text.toList) :
    ¬ Slips text := by
  intro hslips
  cases hslips with
  | lineFeed hmajor hminor htext =>
    rw [htext] at hfeed
    simp at hfeed
  | unread he =>
    rw [he.majorMinorOf_eq] at h
    contradiction

/-- **Bounds.** Two texts make a range exactly if both are accepted as bounds and are in order; what is
reported of all others is known exactly. Texts that the check of the form and the reading agree on
make a range exactly if both are plain bounds in order, and what is reported of any others of them is
a matter of the configuration. A text with half a character in it never makes one. -/
theorem ofValues_accepts_bounds_in_order (store : Store) (min max : String) :
    ((∃ r, ofValues store (.text min) (.text max) = .ok r) ↔
        ∃ l u, IsReadBound min l ∧ IsReadBound max u ∧ l ≤ u) ∧
      (∀ e, ofValues store (.text min) (.text max) = .error e ↔ Refused min max e) ∧
      (¬ Slips min → ¬ Slips max →
        ((∃ r, ofValues store (.text min) (.text max) = .ok r) ↔
          ∃ l u, IsPlainBound min l ∧ IsPlainBound max u ∧ l ≤ u) ∧
        ∀ e, ofValues store (.text min) (.text max) = .error e →
          ∃ problem, e = .configuration problem) ∧
      ∀ t, (∀ other, ∃ problem,
          ofValues store (.broken t) other = .error (.configuration problem)) ∧
        ∃ problem, ofValues store (.text min) (.broken t) = .error (.configuration problem) := by
  refine ⟨exists_ofValues_iff, fun e => ofValues_eq_error_iff, ?_, ?_⟩
  · intro hmin hmax
    refine ⟨?_, ?_⟩
    · rw [exists_ofValues_iff]
      simp only [isReadBound_iff_of_not_slips hmin, isReadBound_iff_of_not_slips hmax]
    · intro e he
      cases ofValues_eq_error_iff.mp he with
      | minForm | maxForm | reversed => exact ⟨_, rfl⟩
      | minUnread h => exact absurd (.unread h) hmin
      | maxUnread _ h => exact absurd (.unread h) hmax
  · intro t
    refine ⟨?_, ?_⟩
    · intro other
      refine ⟨.invalidBound (String.ofList (Text.Symbol.quoted t.symbols)), ?_⟩
      simp only [ofValues, boundOf_broken]
    · by_cases hmin : HasBoundForm min
      · refine ⟨.invalidBound (String.ofList (Text.Symbol.quoted t.symbols)), ?_⟩
        simp only [ofValues, boundOf_of_hasBoundForm store hmin, boundOf_broken]
      · refine ⟨.invalidBound (Text.quoted min), ?_⟩
        simp only [ofValues, boundOf_of_not_hasBoundForm store hmin]

/-- The bounds of the standard range are plain ones. -/
theorem standard_bounds_in_order :
    ¬ Slips "1.11" ∧ ¬ Slips "1.21" ∧
      (∃ r, ofValues {} (.text "1.11") (.text "1.21") = .ok r) ∧
      ∃ l u, IsPlainBound "1.11" l ∧ IsPlainBound "1.21" u ∧ l ≤ u := by
  have hmin : ¬ Slips "1.11" := not_slips_of_majorMinorOf (m := ⟨1, 11⟩) rfl (by decide)
  have hmax : ¬ Slips "1.21" := not_slips_of_majorMinorOf (m := ⟨1, 21⟩) rfl (by decide)
  have hmade : ∃ r, ofValues {} (.text "1.11") (.text "1.21") = .ok r := ⟨_, rfl⟩
  obtain ⟨-, -, hplain, -⟩ := ofValues_accepts_bounds_in_order {} "1.11" "1.21"
  exact ⟨hmin, hmax, hmade, (hplain hmin hmax).1.mp hmade⟩

/-- A line feed after a bound is passed over, though no plain bound has one. An Arabic digit passes for
a part of a bound and is then reported as a part of no version; a plain bound with a number of 4301
digits is reported for its length. -/
theorem bounds_that_slip :
    (∃ r, ofValues {} (.text "1.11") (.text "1.21\n") = .ok r) ∧
      (∀ m, ¬ IsPlainBound "1.21\n" m) ∧
      ofValues {} (.text "1.11") (.text "1.٣") = .error (.invalidVersion (Text.quoted "1.٣")) ∧
      ofValues {} (.text "1.11")
          (.text (String.ofList (dotted ['1'] [List.replicate 4301 '1']))) =
        .error .numberTooLong := by
  have hleast : majorMinorOf "1.11" = .ok ⟨1, 11⟩ := rfl
  have hform : HasBoundForm "1.11" := isBound_eq_true_iff.mp rfl
  refine ⟨⟨_, rfl⟩, ?_, ?_, ?_⟩
  · rintro m ⟨major, minor, hmajor, hminor, htext, -⟩
    have hfeed : '\n' ∈ "1.21\n".toList := by decide
    rw [htext, dotted_pair, List.mem_append, List.mem_cons] at hfeed
    have hdigit : ('\n').isDigit = true := by
      rcases hfeed with h | h | h
      · exact hmajor.2 _ h
      · contradiction
      · exact hminor.2 _ h
    contradiction
  · have harabic : HasBoundForm "1.٣" := isBound_eq_true_iff.mp rfl
    exact ofValues_of_max_error {} hform harabic hleast (Version.majorMinorOf_of_malformed rfl)
  · have hone : IsRun ['1'] := Version.isRun_replicate (n := 1) (by decide) (by decide)
    have hmany : IsRun (List.replicate 4301 '1') :=
      Version.isRun_replicate (by decide) (by decide)
    have hlong : Unread (String.ofList (dotted ['1'] [List.replicate 4301 '1'])) .numberTooLong :=
      .overlong hone hmany (.inl String.toList_ofList)
        (.inr (by rw [List.length_replicate]; decide))
    exact ofValues_of_max_error {} hform hlong.hasBoundForm hleast hlong.majorMinorOf_eq

end ToolchainChoice.SupportedRange
