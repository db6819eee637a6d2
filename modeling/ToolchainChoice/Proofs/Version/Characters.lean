import ToolchainChoice.Proofs.Text.Digits
import ToolchainChoice.Version.Reading

/-!
# The characters of a version

A version is written with ASCII letters and digits and five marks: no text that holds another character
is one, white space around the version apart. Each step of reading takes characters off the front of a
text, and takes such characters only. The lemmas below say so backwards, from the last step to the
first: if what a step leaves holds no other character, then what it was given holds none.
-/
namespace ToolchainChoice.Version

open Text (isBlank strip stripStart stripEnd)

/-- The characters with which versions are written. -/
def isVersionChar (c : Char) : Bool :=
  c.isAlphanum || Written.isSeparator c || c == '!' || c == '+'

def IsPlainText (cs : List Char) : Prop := ∀ c ∈ cs, isVersionChar c = true

variable {c : Char} {cs ds rest : List Char}

theorem isPlainText_nil : IsPlainText [] := List.forall_mem_nil _

theorem isPlainText_cons : IsPlainText (c :: cs) ↔ isVersionChar c = true ∧ IsPlainText cs :=
  List.forall_mem_cons

theorem isPlainText_append : IsPlainText (cs ++ ds) ↔ IsPlainText cs ∧ IsPlainText ds :=
  List.forall_mem_append

theorem isPlainText_of_all (h : cs.all isVersionChar = true) : IsPlainText cs :=
  List.all_eq_true.mp h

theorem isVersionChar_of_isAlphanum (h : c.isAlphanum = true) : isVersionChar c = true := by
  unfold isVersionChar
  rw [h]
  rfl

theorem isVersionChar_of_isDigit (h : c.isDigit = true) : isVersionChar c = true :=
  isVersionChar_of_isAlphanum (Bool.or_eq_true_iff.mpr (.inr h))

theorem isVersionChar_of_isSeparator (h : Written.isSeparator c = true) : isVersionChar c = true := by
  unfold isVersionChar
  rw [h, Bool.or_true]
  rfl

/-- An upper case letter stands for its lower case in a version. -/
theorem isVersionChar_of_toLower (h : isVersionChar c.toLower = true) : isVersionChar c = true := by
  by_cases hupper : c.isUpper = true
  · have halpha : c.isAlpha = true := Bool.or_eq_true_iff.mpr (.inl hupper)
    exact isVersionChar_of_isAlphanum (Bool.or_eq_true_iff.mpr (.inl halpha))
  · have hsame : c.toLower = c := by
      unfold Char.toLower
      exact dif_neg fun hrange => hupper (decide_eq_true hrange)
    rwa [hsame] at h

theorem toNat_lt_of_isAlphanum (h : c.isAlphanum = true) : c.toNat < 128 := by
  have hclasses : ((c.isUpper || c.isLower) || c.isDigit) = true := h
  rw [Bool.or_eq_true, Bool.or_eq_true] at hclasses
  rcases hclasses with (hupper | hlower) | hdigit
  · have hlast : c.toNat ≤ 90 := UInt32.le_iff_toNat_le.mp (of_decide_eq_true hupper).2
    omega
  · obtain ⟨-, hle⟩ := Bool.and_eq_true_iff.mp hlower
    have hlast : c.toNat ≤ 122 := UInt32.le_iff_toNat_le.mp (of_decide_eq_true hle)
    omega
  · obtain ⟨-, hle⟩ := Bool.and_eq_true_iff.mp hdigit
    have hlast : c.toNat ≤ 57 := UInt32.le_iff_toNat_le.mp (of_decide_eq_true hle)
    omega

theorem toNat_lt_of_isVersionChar (h : isVersionChar c = true) : c.toNat < 128 := by
  simp only [isVersionChar, Written.isSeparator, Bool.or_eq_true, beq_iff_eq] at h
  rcases h with ((halnum | (rfl | rfl) | rfl) | rfl) | rfl
  · exact toNat_lt_of_isAlphanum halnum
  all_goals decide

namespace Written

/-! ## Single steps -/

theorem isPlainText_of_digits (h : IsPlainText (digits cs).2) : IsPlainText cs := by
  rw [← List.takeWhile_append_dropWhile (p := Char.isDigit) (l := cs), isPlainText_append]
  refine ⟨?_, h⟩
  intro c hc
  exact isVersionChar_of_isDigit (List.all_eq_true.mp List.all_takeWhile c hc)

theorem isPlainText_of_skipSeparator (h : IsPlainText (skipSeparator cs)) : IsPlainText cs := by
  cases cs with
  | nil => exact isPlainText_nil
  | cons c cs =>
    rw [skipSeparator] at h
    split at h
    · rename_i hsep
      exact isPlainText_cons.mpr ⟨isVersionChar_of_isSeparator hsep, h⟩
    · exact h

theorem append_of_after? {word : List Char} (h : after? word cs = some rest) : cs = word ++ rest := by
  induction word generalizing cs with
  | nil => exact Option.some.inj h
  | cons w ws ih =>
    cases cs with
    | nil => contradiction
    | cons c cs =>
      rw [after?] at h
      split at h
      · rename_i hwc
        rw [hwc, ih h, List.cons_append]
      · contradiction

theorem isPlainText_of_tagged {τ : Type} {spellings : List (List Char × τ)} {tag : τ}
    (hs : (spellings.all fun p => p.1.all isVersionChar) = true)
    (h : tagged spellings cs = some (tag, ds, rest)) (hrest : IsPlainText rest) : IsPlainText cs := by
  obtain ⟨⟨spelling, tag'⟩, hmem, hspelling⟩ := List.exists_of_findSome?_eq_some h
  obtain ⟨after, hafter, heq⟩ := Option.map_eq_some_iff.mp hspelling
  obtain ⟨-, hdigits⟩ := Prod.ext_iff.mp heq
  have hleft : (digits (skipSeparator after)).2 = rest := (Prod.ext_iff.mp hdigits).2
  rw [← hleft] at hrest
  apply isPlainText_of_skipSeparator
  rw [append_of_after? hafter, isPlainText_append]
  exact ⟨isPlainText_of_all (List.all_eq_true.mp hs _ hmem),
    isPlainText_of_skipSeparator (isPlainText_of_digits hrest)⟩

/-! ## The parts of a version -/

theorem isPlainText_of_preRelease (h : IsPlainText (preRelease cs).2) : IsPlainText cs := by
  unfold preRelease at h
  split at h
  · rename_i htagged
    exact isPlainText_of_tagged rfl htagged h
  · exact h

theorem isPlainText_of_postWord (h : IsPlainText (postWord cs).2) : IsPlainText cs := by
  unfold postWord at h
  split at h
  · rename_i htagged
    exact isPlainText_of_tagged rfl htagged h
  · exact h

theorem isPlainText_of_postRelease (h : IsPlainText (postRelease cs).2) : IsPlainText cs := by
  unfold postRelease at h
  split at h
  · split at h
    · exact isPlainText_cons.mpr ⟨by decide, isPlainText_of_digits h⟩
    · exact isPlainText_of_postWord h
  · exact isPlainText_of_postWord h

theorem isPlainText_of_devRelease (h : IsPlainText (devRelease cs).2) : IsPlainText cs := by
  unfold devRelease at h
  split at h
  · rename_i htagged
    exact isPlainText_of_tagged rfl htagged h
  · exact h

theorem isPlainText_of_release {run : List Char} (h : IsPlainText (release run cs).2) : IsPlainText cs := by
  fun_induction release run cs with
  | case1 run => exact isPlainText_nil
  | case2 run c cs hdigit ih => exact isPlainText_cons.mpr ⟨isVersionChar_of_isDigit hdigit, ih h⟩
  | case3 run c cs hdigit hpoint runs rest heq ih =>
    rw [heq] at ih
    exact isPlainText_cons.mpr ⟨by rw [hpoint.1]; decide, ih h⟩
  | case4 run c cs hdigit hpoint => exact h

theorem isPlainText_of_epoch (h : IsPlainText (epoch cs).2) : IsPlainText cs := by
  unfold epoch at h
  split at h
  · rename_i ds rest heq
    split at h
    · exact h
    · apply isPlainText_of_digits
      rw [heq]
      exact isPlainText_cons.mpr ⟨by decide, h⟩
  · exact h

theorem isPlainText_of_locals {run : List Char} {segments : List (Segment (List Char))}
    (h : locals run cs = some segments) : IsPlainText cs := by
  fun_induction locals run cs generalizing segments with
  | case1 => exact isPlainText_nil
  | case2 => exact isPlainText_nil
  | case3 run c cs halnum ih => exact isPlainText_cons.mpr ⟨isVersionChar_of_isAlphanum halnum, ih h⟩
  | case4 run c cs halnum hsep ih =>
    obtain ⟨more, hmore, -⟩ := Option.map_eq_some_iff.mp h
    exact isPlainText_cons.mpr ⟨isVersionChar_of_isSeparator hsep.1, ih hmore⟩
  | case5 => contradiction

theorem isPlainText_of_ending {segments : Option (List (Segment (List Char)))}
    (h : ending cs = some segments) : IsPlainText cs := by
  unfold ending at h
  split at h
  · exact isPlainText_nil
  · obtain ⟨more, hmore, -⟩ := Option.map_eq_some_iff.mp h
    exact isPlainText_cons.mpr ⟨by decide, isPlainText_of_locals hmore⟩
  · contradiction

/-! ## The whole text -/

theorem isPlainText_of_ofLower? {w : Written} (h : ofLower? cs = some w) : IsPlainText cs := by
  unfold ofLower? at h
  dsimp only at h
  split at h
  · split at h
    · contradiction
    · rename_i hrelease
      obtain ⟨segments, hending, -⟩ := Option.map_eq_some_iff.mp h
      have hdev := isPlainText_of_devRelease (isPlainText_of_ending hending)
      have hpre := isPlainText_of_preRelease (isPlainText_of_postRelease hdev)
      have hrest : IsPlainText (release [] (epoch cs).2).2 := by
        rw [hrelease]
        exact hpre
      exact isPlainText_of_epoch (isPlainText_of_release hrest)
  · contradiction

theorem isPlainText_of_skipV (h : IsPlainText (skipV cs)) : IsPlainText cs := by
  unfold skipV at h
  split at h
  · exact isPlainText_cons.mpr ⟨by decide, h⟩
  · exact h

theorem skipGo_cases (cs : List Char) : skipGo cs = cs ∨ cs = 'g' :: 'o' :: skipGo cs := by
  unfold skipGo
  cases hafter : after? ['g', 'o'] cs with
  | none => exact .inl rfl
  | some rest => exact .inr (append_of_after? hafter)

/-- What is taken off the ends of a text is blank. -/
theorem mem_stripEnd_or_isBlank : ∀ c ∈ cs, c ∈ stripEnd cs ∨ isBlank c = true := by
  induction cs with
  | nil => exact List.forall_mem_nil _
  | cons d ds ih =>
    rw [List.forall_mem_cons, stripEnd]
    cases hds : stripEnd ds with
    | nil =>
      rw [hds] at ih
      have hblank : ∀ c ∈ ds, isBlank c = true := by
        intro c hc
        exact (ih c hc).resolve_left List.not_mem_nil
      by_cases hd : isBlank d = true
      · exact ⟨.inr hd, fun c hc => .inr (hblank c hc)⟩
      · rw [if_neg hd]
        exact ⟨.inl List.mem_cons_self, fun c hc => .inr (hblank c hc)⟩
    | cons e es =>
      rw [hds] at ih
      refine ⟨.inl List.mem_cons_self, ?_⟩
      intro c hc
      exact (ih c hc).imp_left (List.mem_cons_of_mem d)

theorem mem_strip_or_isBlank : ∀ c ∈ cs, c ∈ strip cs ∨ isBlank c = true := by
  intro c hc
  rw [← List.takeWhile_append_dropWhile (p := isBlank) (l := cs)] at hc
  rcases List.mem_append.mp hc with htaken | hleft
  · exact .inr (List.all_eq_true.mp List.all_takeWhile c htaken)
  · exact mem_stripEnd_or_isBlank c hleft

/-- **Characters.** The text of a version holds the characters of versions, and may hold white space. -/
theorem isVersionChar_or_isBlank_of_ofText? {w : Written} (h : ofText? cs = some w) :
    ∀ c ∈ cs, isVersionChar c = true ∨ isBlank c = true := by
  have hlower := isPlainText_of_skipV (isPlainText_of_ofLower? h)
  have hgo : ∀ c ∈ skipGo (strip cs), isVersionChar c = true ∨ isBlank c = true := by
    intro c hc
    refine (mem_strip_or_isBlank c hc).imp_left fun hmem => ?_
    exact isVersionChar_of_toLower (hlower _ (List.mem_map_of_mem hmem))
  intro c hc
  rcases mem_strip_or_isBlank c hc with hmem | hblank
  · rcases skipGo_cases (strip cs) with hsame | hcons
    · rw [← hsame] at hmem
      exact hgo c hmem
    · rw [hcons, List.mem_cons, List.mem_cons] at hmem
      rcases hmem with rfl | rfl | hmem
      · exact .inl (by decide)
      · exact .inl (by decide)
      · exact hgo c hmem
  · exact .inr hblank

/-- Of the digits of all scripts only the ASCII ones occur in a version. -/
theorem isDigit_of_ofText? {w : Written} (h : ofText? cs = some w) (hc : c ∈ cs)
    (hdigit : Text.isDecimalDigit c = true) : c.isDigit = true := by
  rcases isVersionChar_or_isBlank_of_ofText? h c hc with hchar | hblank
  · exact Text.isDigit_of_isDecimalDigit hdigit (toNat_lt_of_isVersionChar hchar)
  · rw [Text.isBlank_of_isDecimalDigit hdigit] at hblank
    contradiction

end Written

/-- What is read as a version holds the characters of versions and white space only. -/
theorem isVersionChar_or_isBlank_of_read {text : String} {v : Version} (h : read text = .ok v)
    (hc : c ∈ text.toList) : isVersionChar c = true ∨ isBlank c = true := by
  unfold read ofChars at h
  split at h
  · contradiction
  · rename_i w hw
    exact Written.isVersionChar_or_isBlank_of_ofText? hw c hc

theorem isDigit_of_read {text : String} {v : Version} (h : read text = .ok v) (hc : c ∈ text.toList)
    (hdigit : Text.isDecimalDigit c = true) : c.isDigit = true := by
  unfold read ofChars at h
  split at h
  · contradiction
  · rename_i w hw
    exact Written.isDigit_of_ofText? hw hc hdigit

end ToolchainChoice.Version
