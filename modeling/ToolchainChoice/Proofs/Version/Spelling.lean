import ToolchainChoice.Proofs.Text.Digits
import ToolchainChoice.Proofs.Text.Tokens
import ToolchainChoice.Proofs.Version.DottedNumbers
import ToolchainChoice.Proofs.Version.Preorder

/-!
# What stands around a version

White space around a version, and the name of the toolchain and the letter v before it, are taken off
before its parts are read. So they have no part in what is read: the version, or the reason why there is
none. For this the text behind them has to begin with a character that is not taken off itself. A digit
is one, whatever its script; what follows the digit is left open.
-/
namespace ToolchainChoice.Version

open Text (isBlank stripEnd IsBlankText isDecimalDigit)

/-- What may stand before a version: the name of the toolchain, the letter v, or both. -/
def leads : List String := ["", "v", "V", "go", "gov", "goV"]

variable {c : Char} {before after lead body text : String}

namespace Written

/-! ## The name and the letter -/

/-- A name before the text is taken off, but not a second one. -/
theorem ofText?_go (hc : isBlank c = false) (hg : c ≠ 'g') (cs : List Char) :
    ofText? ('g' :: 'o' :: c :: cs) = ofText? (c :: cs) := by
  have hword : Text.strip ('g' :: 'o' :: c :: cs) = 'g' :: 'o' :: c :: stripEnd cs := by
    rw [Text.strip_cons (by decide), Text.stripEnd_cons (by decide), Text.stripEnd_cons hc]
  have hskip : skipGo ('g' :: 'o' :: c :: stripEnd cs) = c :: stripEnd cs := rfl
  have hgo : ofText?.stripGo ('g' :: 'o' :: c :: cs) = c :: stripEnd cs := by
    rw [ofText?.stripGo, hword, hskip, Text.strip_cons hc, Text.stripEnd_stripEnd]
  rw [ofText?, ofText?, hgo, stripGo_cons hc hg]

/-- So is a letter v in either case. -/
theorem ofText?_letter {letter : Char} (hletter : letter = 'v' ∨ letter = 'V') (hc : IsPlain c)
    (hg : c ≠ 'g') (hv : c ≠ 'v') (cs : List Char) :
    ofText? (letter :: c :: cs) = ofText? (c :: cs) := by
  have hkind : isBlank letter = false ∧ letter ≠ 'g' ∧ letter.toLower = 'v' := by
    rcases hletter with rfl | rfl
    · decide
    · decide
  obtain ⟨hblank, hname, hlower⟩ := hkind
  have hleft : skipV ('v' :: c :: (stripEnd cs).map Char.toLower) =
      c :: (stripEnd cs).map Char.toLower := rfl
  rw [ofText?, ofText?, stripGo_cons hblank hname, Text.stripEnd_cons hc.not_blank,
    stripGo_cons hc.not_blank hg, List.map_cons, List.map_cons, hlower, hc.lower, hleft,
    skipV_of_ne hv]

/-- A lead before a text that begins with none makes no difference. -/
theorem ofText?_lead (hlead : lead ∈ leads) (hc : IsPlain c) (hg : c ≠ 'g') (hv : c ≠ 'v')
    (cs : List Char) : ofText? (lead.toList ++ c :: cs) = ofText? (c :: cs) := by
  have hsmall := ofText?_letter (.inl rfl) hc hg hv cs
  have hcapital := ofText?_letter (.inr rfl) hc hg hv cs
  simp only [leads, List.mem_cons, List.not_mem_nil, or_false] at hlead
  rcases hlead with rfl | rfl | rfl | rfl | rfl | rfl
  · rfl
  · exact hsmall
  · exact hcapital
  · exact ofText?_go hc.not_blank hg cs
  · exact (ofText?_go (by decide) (by decide) (c :: cs)).trans hsmall
  · exact (ofText?_go (by decide) (by decide) (c :: cs)).trans hcapital

end Written

/-! ## Texts that begin with a digit -/

/-- The text begins with a digit, of whichever script. -/
def BeginsWithDigit (text : String) : Prop := ∃ c ∈ text.toList.head?, isDecimalDigit c = true

theorem isPlain_of_isDecimalDigit (h : isDecimalDigit c = true) : IsPlain c := by
  by_cases hascii : c.toNat < 128
  · exact isPlain_of_isDigit (Text.isDigit_of_isDecimalDigit h hascii)
  · refine ⟨Text.isBlank_of_isDecimalDigit h, ?_⟩
    -- beyond ASCII no character has another lower case
    unfold Char.toLower
    refine dif_neg fun hupper => ?_
    have hle : c.toNat ≤ 90 := UInt32.le_iff_toNat_le.mp hupper.2
    omega

/-- A text that begins with a digit is read in the same way whatever stands around it, also if it is no
version. -/
theorem read_surrounded (hbefore : IsBlankText before.toList) (hafter : IsBlankText after.toList)
    (hlead : lead ∈ leads) (hbody : BeginsWithDigit body) :
    read (before ++ lead ++ body ++ after) = read body := by
  obtain ⟨c, hc, hdigit⟩ := hbody
  obtain ⟨cs, hcs⟩ := List.head?_eq_some_iff.mp hc
  have hg : c ≠ 'g' := by
    rintro rfl
    exact absurd hdigit (by decide)
  have hv : c ≠ 'v' := by
    rintro rfl
    exact absurd hdigit (by decide)
  have hwritten : Written.ofText? (before ++ lead ++ body ++ after).toList =
      Written.ofText? body.toList := by
    rw [String.toList_append, Written.ofText?_append_blanks hafter, String.toList_append,
      String.toList_append, List.append_assoc, Written.ofText?_blanks_append hbefore, hcs,
      Written.ofText?_lead hlead (isPlain_of_isDecimalDigit hdigit) hg hv]
  unfold read ofChars
  rw [hwritten]

theorem isValid_congr {other : String} (h : read text = read other) : isValid text = isValid other := by
  unfold isValid
  rw [h]

/-- **Surroundings.** A text that begins with a digit is valid with a lead and white space around it
exactly if it is valid without them, and a number in it that is too long is the same failure of both. If
it is a version, both texts have the same first two numbers, they are equal, and they compare in the same
way with every version. -/
theorem surroundings_carry_no_meaning (hbefore : IsBlankText before.toList)
    (hafter : IsBlankText after.toList) (hlead : lead ∈ leads) (hbody : BeginsWithDigit body)
    (htext : text = before ++ lead ++ body ++ after) :
    isValid text = isValid body ∧
      (isValid body = .ok true →
        (∃ m, majorMinorOf text = .ok m ∧ majorMinorOf body = .ok m) ∧
        compareTexts text body = .ok .eq ∧
        ∀ other, isValid other = .ok true →
          ∃ order, compareTexts text other = .ok order ∧ compareTexts body other = .ok order) := by
  have hread : read text = read body := by
    rw [htext]
    exact read_surrounded hbefore hafter hlead hbody
  refine ⟨isValid_congr hread, fun hvalid => ?_⟩
  obtain ⟨v, hv⟩ := isValid_eq_true_iff.mp hvalid
  rw [hv] at hread
  refine ⟨⟨v.majorMinor, ?_, ?_⟩, ?_, fun other hother => ?_⟩
  · exact majorMinorOf_eq_ok_iff.mpr ⟨v, hread, rfl⟩
  · exact majorMinorOf_eq_ok_iff.mpr ⟨v, hv, rfl⟩
  · exact compareTexts_eq_ok_iff.mpr ⟨v, v, hread, hv, Std.ReflCmp.compare_self⟩
  · obtain ⟨w, hw⟩ := isValid_eq_true_iff.mp hother
    exact ⟨compare v w, compareTexts_of_read hread hw, compareTexts_of_read hv hw⟩

/-- A candidate for 1.21 stays one, and stays below 1.21, with a name, a letter and white space. -/
theorem surrounded_1_21rc2 :
    IsBlankText "\u00a0\t".toList ∧ IsBlankText " \n".toList ∧ "goV" ∈ leads ∧
      BeginsWithDigit "1.21rc2" ∧ "\u00a0\tgoV1.21rc2 \n" = "\u00a0\t" ++ "goV" ++ "1.21rc2" ++ " \n" ∧
      isValid "1.21rc2" = .ok true ∧ isValid "v1.21" = .ok true ∧
      isValid "\u00a0\tgoV1.21rc2 \n" = .ok true ∧
      majorMinorOf "\u00a0\tgoV1.21rc2 \n" = .ok ⟨1, 21⟩ ∧
      compareTexts "\u00a0\tgoV1.21rc2 \n" "1.21rc2" = .ok .eq ∧
      compareTexts "\u00a0\tgoV1.21rc2 \n" "v1.21" = .ok .lt := by
  have hbefore : IsBlankText "\u00a0\t".toList := List.all_eq_true.mp rfl
  have hafter : IsBlankText " \n".toList := List.all_eq_true.mp rfl
  have hlead : "goV" ∈ leads := by decide
  have hbody : BeginsWithDigit "1.21rc2" := ⟨'1', rfl, rfl⟩
  have htext : "\u00a0\tgoV1.21rc2 \n" = "\u00a0\t" ++ "goV" ++ "1.21rc2" ++ " \n" := by decide
  have hvalid : isValid "1.21rc2" = .ok true := rfl
  have hother : isValid "v1.21" = .ok true := rfl
  have hnumbers : majorMinorOf "1.21rc2" = .ok ⟨1, 21⟩ := rfl
  have hlower : compareTexts "1.21rc2" "v1.21" = .ok .lt := rfl
  obtain ⟨hsame, hmeaning⟩ := surroundings_carry_no_meaning hbefore hafter hlead hbody htext
  obtain ⟨⟨m, hm, hm'⟩, hequal, hcompare⟩ := hmeaning hvalid
  obtain ⟨order, horder, horder'⟩ := hcompare "v1.21" hother
  obtain rfl := except_ok_unique hnumbers hm'
  obtain rfl := except_ok_unique hlower horder'
  exact ⟨hbefore, hafter, hlead, hbody, htext, hvalid, hother, hsame.trans hvalid, hm, hequal, horder⟩

end ToolchainChoice.Version
