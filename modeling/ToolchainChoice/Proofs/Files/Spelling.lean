import ToolchainChoice.Files.Spelling
import ToolchainChoice.Proofs.Text.Utf8

/-!
# Texts that name a path

Which texts the system cannot be asked for, and why: those with half a character that has no octet, and
of the others those with the character NUL. All others are asked for. A text of whole characters is asked
for as the path that it is read as, and is shown as that path is.
-/
namespace ToolchainChoice

open Files (Path Spelling locate)
open Text (Half Symbol)

variable {text : Symbols} {e : Failure}

/-! ## Octets -/

theorem Text.Half.octet?_eq_none_iff {h : Half} :
    h.octet? = none ↔ h.code < 0xDC80 ∨ 0xDCFF < h.code := by
  unfold octet?
  split <;> simp <;> omega

namespace Symbols

/-- A text has no octets exactly if a half in it has none. -/
theorem octets?_eq_none_iff :
    text.octets? = none ↔ ∃ h : Half, .half h ∈ text ∧ (h.code < 0xDC80 ∨ 0xDCFF < h.code) := by
  induction text with
  | nil => simp [octets?]
  | cons s text ih =>
    have hrest : octets? (s :: text) = none ↔ s.octets? = none ∨ octets? text = none := by
      rw [octets?]
      cases s.octets? <;> cases octets? text <;> simp
    rw [hrest, ih]
    cases s with
    | char c => simp [Symbol.octets?]
    | half h =>
      simp only [Symbol.octets?, Option.map_eq_none_iff, Half.octet?_eq_none_iff, List.mem_cons,
        Symbol.half.injEq]
      constructor
      · rintro (hcode | ⟨h', hmem, hcode⟩)
        · exact ⟨h, .inl rfl, hcode⟩
        · exact ⟨h', .inr hmem, hcode⟩
      · rintro ⟨h', rfl | hmem, hcode⟩
        · exact .inl hcode
        · exact .inr ⟨h', hmem, hcode⟩

theorem octets?_chars (cs : List Char) :
    octets? (cs.map .char) = some (cs.flatMap String.utf8EncodeChar) := by
  induction cs with
  | nil => rfl
  | cons c cs ih => rw [List.map_cons, octets?, ih, Symbol.octets?, List.flatMap_cons]

end Symbols

/-! ## Asking the system -/

namespace Files

/-- The system cannot be asked for a text, for this reason. -/
inductive Unnameable (text : Symbols) : Failure → Prop
  | half {h : Half} (hmem : .half h ∈ text) (hcode : h.code < 0xDC80 ∨ 0xDCFF < h.code) :
      Unnameable text .unencodable
  | nul (hhalves : ∀ h, .half h ∈ text → 0xDC80 ≤ h.code ∧ h.code ≤ 0xDCFF)
      (hmem : .char '\x00' ∈ text) : Unnameable text .nulInPath

theorem locate_eq_error_iff : locate text = .error e ↔ Unnameable text e := by
  unfold locate
  cases hoctets : text.octets? with
  | none =>
    obtain ⟨h, hmem, hcode⟩ := Symbols.octets?_eq_none_iff.mp hoctets
    constructor
    · intro he
      obtain rfl := Except.error.inj he
      exact .half hmem hcode
    · rintro (_ | ⟨hhalves, -⟩)
      · rfl
      · have hfits := hhalves h hmem
        omega
  | some octets =>
    have hhalves : ∀ h : Half, .half h ∈ text → 0xDC80 ≤ h.code ∧ h.code ≤ 0xDCFF := by
      intro h hmem
      have hnot : ¬(h.code < 0xDC80 ∨ 0xDCFF < h.code) := fun hcode => by
        rw [Symbols.octets?_eq_none_iff.mpr ⟨h, hmem, hcode⟩] at hoctets
        contradiction
      omega
    dsimp only
    split
    · rename_i hnul
      have hmem : Symbol.char '\x00' ∈ text := List.contains_iff_mem.mp hnul
      constructor
      · intro he
        obtain rfl := Except.error.inj he
        exact .nul hhalves hmem
      · rintro (⟨hmem, hcode⟩ | _)
        · have hfits := hhalves _ hmem
          omega
        · rfl
    · rename_i hnul
      constructor
      · intro he
        split at he <;> contradiction
      · rintro (⟨hmem, hcode⟩ | ⟨-, hmem⟩)
        · have hfits := hhalves _ hmem
          omega
        · exact absurd (List.contains_iff_mem.mpr hmem) hnul

theorem exists_locate (h : ∀ e, ¬Unnameable text e) : ∃ located, locate text = .ok located := by
  cases hlocate : locate text with
  | error e => exact absurd (locate_eq_error_iff.mp hlocate) (h e)
  | ok located => exact ⟨located, rfl⟩

/-- A text of whole characters without NUL is asked for as it is. -/
theorem locate_ofString {text : String} (hnul : '\x00' ∉ text.toList) :
    locate text = .ok (.ok (Path.ofText text)) := by
  have hoctets : Symbols.octets? text = some (text.toList.flatMap String.utf8EncodeChar) :=
    Symbols.octets?_chars text.toList
  have hcontains : (Symbols.ofString text).contains (.char '\x00') = false := by
    refine Bool.eq_false_iff.mpr fun h => hnul ?_
    obtain ⟨c, hc, hchar⟩ := List.mem_map.mp (List.contains_iff_mem.mp h)
    exact Symbol.char.inj hchar ▸ hc
  have htext : (text.toList.flatMap String.utf8EncodeChar).toByteArray = text.toUTF8 :=
    String.utf8Encode_toList.trans String.toUTF8_eq_toByteArray.symm
  unfold locate
  rw [hoctets]
  dsimp only
  rw [hcontains, htext, Text.Utf8.fromUTF8?_toUTF8]
  rfl

theorem not_unnameable_ofString {text : String} (hnul : '\x00' ∉ text.toList) : ¬Unnameable text e := by
  intro h
  have hlocate := locate_ofString hnul
  rw [locate_eq_error_iff.mpr h] at hlocate
  contradiction

/-! ## Texts of whole characters as they are shown -/

theorem splitSlash_cons (c : Char) (cs : List Char) :
    splitSlash (c :: cs) = if c = '/' then [] :: splitSlash cs else
      match splitSlash cs with
      | [] => [[c]]
      | part :: parts => (c :: part) :: parts := rfl

namespace Spelling

theorem parts_cons (s : Symbol) (text : Symbols) :
    parts (s :: text) = if s = .char '/' then [] :: parts text else
      match parts text with
      | [] => [[s]]
      | part :: parts => (s :: part) :: parts := rfl

theorem parts_chars (cs : List Char) : parts (cs.map .char) = (splitSlash cs).map (List.map .char) := by
  induction cs with
  | nil => rfl
  | cons c cs ih =>
    rw [List.map_cons, parts_cons, splitSlash_cons, ih]
    by_cases hslash : c = '/'
    · rw [if_pos (congrArg Symbol.char hslash), if_pos hslash, List.map_cons, List.map_nil]
    · rw [if_neg (fun h => hslash (Symbol.char.inj h)), if_neg hslash]
      cases splitSlash cs <;> rfl

/-- Read from whole characters, a path has the names that it has for the system. -/
theorem ofText_ofString (text : String) :
    ofText text = ⟨(Path.ofText text).start, (Path.ofText text).names.map Symbols.ofString⟩ := by
  have hparts : parts text = (rawNames text).map Symbols.ofString := by
    unfold rawNames
    rw [Symbols.ofString, parts_chars, List.map_map]
    exact List.map_congr_left fun part _ => (Symbols.ofString_ofList part).symm
  have hname : ((fun name : Symbols => name != "" && name != ".") ∘ Symbols.ofString) = isName := by
    funext name
    have hsame : ∀ other : String, (Symbols.ofString name != other) = (name != other) := fun other =>
      Bool.eq_iff_iff.mpr (by simp only [bne_iff_ne, ne_eq, Symbols.ofString_inj])
    simp only [Function.comp, isName, hsame]
  unfold ofText Path.ofText
  rw [hparts, List.filter_map, hname, Symbols.ofString, Symbol.separate_chars]

end Spelling

theorem intercalate_ofString (names : List String) :
    List.intercalate ("/" : Symbols) (names.map Symbols.ofString) =
      (("/".intercalate names : String) : Symbols) := by
  induction names with
  | nil => rfl
  | cons name names ih =>
    cases names with
    | nil => simp [List.intercalate]
    | cons name' names =>
      rw [List.map_cons, List.map_cons, List.intercalate_cons_cons, ← List.map_cons, ih,
        String.intercalate_cons_cons, Symbols.ofString_append, Symbols.ofString_append]

/-- A file is shown in a folder as the system is asked for it. -/
theorem Spelling.text_child_ofText (text name : String) :
    ((Spelling.ofText text).child name).text = (((Path.ofText text).child name).text : Symbols) := by
  have hnames : (Path.ofText text).names.map Symbols.ofString ++ [(name : Symbols)] =
      ((Path.ofText text).names ++ [name]).map Symbols.ofString := by
    rw [List.map_append, List.map_cons, List.map_nil]
  rw [ofText_ofString]
  unfold Spelling.text Path.text child Path.child
  rw [if_neg (by simp), if_neg (by simp), Symbols.ofString_append, hnames, intercalate_ofString]

end Files

end ToolchainChoice
