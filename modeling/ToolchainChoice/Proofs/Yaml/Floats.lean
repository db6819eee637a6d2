import Mathlib.Data.List.TakeWhile
import ToolchainChoice.Proofs.Calendar.TimeStamp
import ToolchainChoice.Proofs.Version.DottedNumbers
import ToolchainChoice.Yaml.Scalar

/-!
# Two runs of digits as a plain scalar

A plain scalar with digits, a point and digits again is a float, however many digits there are. Its value is
the nearest number there is, and no text: the zeros at its end are lost, and so are the digits that the
nearest number does not tell apart.
-/
namespace ToolchainChoice.Yaml

open Number (Binary64 Literal splitSign)
open Version (IsRun IsPlain dotted of_isDigit isPlain_of_mem_dotted)
open Calendar (takeWhile_digits trimEnd_eq_self)

variable {major minor : List Char}

/-! ## Characters of a float -/

theorem isRun_pair (hminor : IsRun minor) : ∀ ds ∈ [minor], IsRun ds :=
  fun _ hds => List.mem_singleton.mp hds ▸ hminor

theorem digit_or_point (hmajor : IsRun major) (hminor : IsRun minor) :
    ∀ c ∈ dotted major [minor], c.isDigit = true ∨ c = '.' :=
  Version.digit_or_point_of_mem_dotted hmajor (isRun_pair hminor)

/-- What holds of the ten digits and of the point holds of every character of a float. -/
theorem of_mem_dotted {p : Char → Bool} (hdigits : ∀ n ∈ List.range' 48 10, p (Char.ofNat n) = true)
    (hpoint : p '.' = true) (hmajor : IsRun major) (hminor : IsRun minor) :
    ∀ c ∈ dotted major [minor], p c = true := by
  intro c hc
  rcases digit_or_point hmajor hminor c hc with hdigit | rfl
  · exact of_isDigit hdigits hdigit
  · exact hpoint

theorem exists_head_dotted (hmajor : IsRun major) (minor : List Char) :
    ∃ c cs, dotted major [minor] = c :: cs ∧ c.isDigit = true := by
  obtain ⟨c, cs, rfl⟩ := List.exists_cons_of_ne_nil hmajor.1
  exact ⟨c, cs ++ [minor].flatMap ('.' :: ·), rfl, hmajor.2 c List.mem_cons_self⟩

/-- A text that begins with a digit is not a word that begins with something else. -/
theorem dotted_ne (word : String) (hmajor : IsRun major) (minor : List Char)
    (hword : (word.toList.head?.all fun c => !c.isDigit) = true) :
    dotted major [minor] ≠ word.toList := by
  obtain ⟨c, cs, hcs, hc⟩ := exists_head_dotted hmajor minor
  intro heq
  rw [← heq, hcs] at hword
  simp [hc] at hword

/-! ## The tag -/

theorem trimEnd_dotted (hmajor : IsRun major) (hminor : IsRun minor) :
    trimEnd (dotted major [minor]) = dotted major [minor] := by
  refine trimEnd_eq_self fun hmem => ?_
  have hfeed := digit_or_point hmajor hminor '\n' hmem
  contradiction

theorem isOneOf_eq_false (words : List String) (hmajor : IsRun major) (hminor : IsRun minor)
    (hwords : (words.all fun word => word.toList.head?.all fun c => !c.isDigit) = true) :
    isOneOf words (dotted major [minor]) = false := by
  unfold isOneOf
  rw [trimEnd_dotted hmajor hminor, List.any_eq_false]
  intro word hword heq
  exact dotted_ne word hmajor minor (List.all_eq_true.mp hwords word hword) (eq_of_beq heq).symm

theorem dropSign_dotted (hmajor : IsRun major) (minor : List Char) :
    dropSign (dotted major [minor]) = dotted major [minor] := by
  obtain ⟨c, cs, hcs, hc⟩ := exists_head_dotted hmajor minor
  rw [hcs]
  unfold dropSign
  split
  · rename_i heq
    obtain ⟨rfl, -⟩ := List.cons.inj heq
    contradiction
  · rename_i heq
    obtain ⟨rfl, -⟩ := List.cons.inj heq
    contradiction
  · rfl

theorem isDigitOr_of_isDigit {ds : List Char} (h : ∀ d ∈ ds, d.isDigit = true) :
    ∀ d ∈ ds, isDigitOr_ d = true := by
  intro d hd
  rw [isDigitOr_, h d hd, Bool.true_or]

theorem isDigitFloat_dotted (hmajor : IsRun major) (hminor : IsRun minor) :
    isDigitFloat (dotted major [minor]) = true := by
  obtain ⟨c, cs, rfl⟩ := List.exists_cons_of_ne_nil hmajor.1
  obtain ⟨hc, hcs⟩ := List.forall_mem_cons.mp hmajor.2
  have hpoint : ¬ isDigitOr_ '.' = true := by decide
  have hfirst : (cs ++ '.' :: minor).dropWhile isDigitOr_ = '.' :: minor := by
    rw [List.dropWhile_append_of_pos (isDigitOr_of_isDigit hcs), List.dropWhile_cons_of_neg hpoint]
  have hsecond : minor.dropWhile isDigitOr_ = [] :=
    List.dropWhile_eq_nil_iff.mpr (isDigitOr_of_isDigit hminor.2)
  have hsplit : dotted (c :: cs) [minor] = c :: (cs ++ '.' :: minor) := by simp [dotted]
  rw [hsplit, isDigitFloat, hc, hfirst]
  show isExponent (minor.dropWhile isDigitOr_) = true
  rw [hsecond]
  rfl

/-- Digits with a point between them are a float. -/
theorem ofPlain_dotted (hmajor : IsRun major) (hminor : IsRun minor) :
    Tag.ofPlain (dotted major [minor]) = .float := by
  have hbool := isOneOf_eq_false boolWords hmajor hminor (by decide +kernel)
  have hfloat : isFloat (dotted major [minor]) = true := by
    unfold isFloat
    dsimp only
    rw [trimEnd_dotted hmajor hminor, dropSign_dotted hmajor minor, isDigitFloat_dotted hmajor hminor]
    simp
  unfold Tag.ofPlain
  rw [hbool, hfloat]
  rfl

/-! ## The value -/

theorem splitSign_dotted (hmajor : IsRun major) (minor : List Char) :
    splitSign (dotted major [minor]) = (false, dotted major [minor]) := by
  obtain ⟨c, cs, hcs, hc⟩ := exists_head_dotted hmajor minor
  rw [hcs]
  unfold splitSign
  split
  · rename_i heq
    obtain ⟨rfl, -⟩ := List.cons.inj heq
    contradiction
  · rename_i heq
    obtain ⟨rfl, -⟩ := List.cons.inj heq
    contradiction
  · rfl

theorem dropWhile_eq_self {p : Char → Bool} {cs : List Char} (h : ∀ c ∈ cs, p c = false) :
    cs.dropWhile p = cs :=
  List.dropWhile_eq_self_iff.mpr fun hne => by simp [h _ (List.getElem_mem hne)]

theorem numberText_dotted (hmajor : IsRun major) (hminor : IsRun minor) :
    numberText (dotted major [minor]) = dotted major [minor] := by
  have hblank : ∀ c ∈ dotted major [minor], isNumberBlank c = false := by
    intro c hc
    have hnot := of_mem_dotted (p := fun c => !isNumberBlank c) (by decide +kernel) (by decide) hmajor
      hminor c hc
    simpa using hnot
  have hascii : ∀ c ∈ dotted major [minor], Text.toAsciiDigit c = c := by
    intro c hc
    have hsame := of_mem_dotted (p := fun c => Text.toAsciiDigit c == c) (by decide +kernel)
      (by decide +kernel) hmajor hminor c hc
    simpa using hsame
  unfold numberText
  dsimp only
  rw [dropWhile_eq_self hblank, dropWhile_eq_self fun c hc => hblank c (List.mem_reverse.mp hc),
    List.reverse_reverse, List.map_congr_left hascii, List.map_id']

theorem ofChars?_dotted (hmajor : IsRun major) (hminor : IsRun minor) :
    Literal.ofChars? (dotted major [minor]) = some ⟨major, minor, 0⟩ := by
  have hpoint : ∀ c ∈ ('.' :: minor).head?, c.isDigit = false := by
    intro c hc
    obtain rfl := Option.some.inj hc
    rfl
  have hend : ∀ c ∈ ([] : List Char).head?, c.isDigit = false := nofun
  obtain ⟨htake, hdrop⟩ := takeWhile_digits hmajor.2 hpoint
  obtain ⟨htake', hdrop'⟩ := takeWhile_digits hminor.2 hend
  rw [List.append_nil] at htake' hdrop'
  have hsplit : dotted major [minor] = major ++ '.' :: minor := by simp [dotted]
  unfold Literal.ofChars?
  rw [hsplit, htake, hdrop]
  simp [htake', hdrop', hmajor.1, Number.exponent?]

theorem decimalValue_dotted (hmajor : IsRun major) (hminor : IsRun minor) :
    decimalValue (dotted major [minor]) = .ok (.ofLiteral false ⟨major, minor, 0⟩) := by
  have hinf := dotted_ne "inf" hmajor minor (by decide +kernel)
  have hinfinity := dotted_ne "infinity" hmajor minor (by decide +kernel)
  have hnan := dotted_ne "nan" hmajor minor (by decide +kernel)
  unfold decimalValue
  rw [numberText_dotted hmajor hminor, splitSign_dotted hmajor minor]
  dsimp only
  rw [if_neg (not_or.mpr ⟨hinf, hinfinity⟩), if_neg hnan, ofChars?_dotted hmajor hminor]

theorem floatValue_dotted (hmajor : IsRun major) (hminor : IsRun minor) (which : Nat) :
    floatValue which (dotted major [minor]) =
      .ok (.ofFloat which (.ofLiteral false ⟨major, minor, 0⟩)) := by
  have hunderscores : withoutUnderscores (dotted major [minor]) = dotted major [minor] :=
    List.filter_eq_self.mpr
      (of_mem_dotted (p := fun c => c != '_') (by decide) (by decide) hmajor hminor)
  have hlower : toLower (dotted major [minor]) = dotted major [minor] := by
    unfold toLower
    rw [List.map_congr_left fun c hc => (isPlain_of_mem_dotted hmajor (isRun_pair hminor) c hc).lower,
      List.map_id']
  have hcolon : (dotted major [minor]).contains ':' = false := by
    refine Bool.eq_false_iff.mpr fun hmem => ?_
    have hchar := digit_or_point hmajor hminor ':' (List.contains_iff_mem.mp hmem)
    contradiction
  have hempty : (dotted major [minor]).isEmpty = false := by
    obtain ⟨c, cs, hcs, -⟩ := exists_head_dotted hmajor minor
    rw [hcs]
    rfl
  have hinf := dotted_ne ".inf" hmajor minor (by decide +kernel)
  have hnan := dotted_ne ".nan" hmajor minor (by decide +kernel)
  unfold floatValue
  dsimp only
  rw [hunderscores, hlower, splitSign_dotted hmajor minor, hempty, hcolon]
  simp only [if_neg hinf, if_neg hnan, decimalValue_dotted hmajor hminor, Except.map, Bool.false_eq_true,
    if_false]

end ToolchainChoice.Yaml
