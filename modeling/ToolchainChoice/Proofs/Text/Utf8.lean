import ToolchainChoice.Files.Text

/-!
# Texts in UTF-8

The octets of a text are read back as the text. Nothing rules them out on the way: what must follow the
first octet of a character is what does follow it, so the reading of a file that holds a text comes to its
end.
-/
namespace ToolchainChoice.Text.Utf8

variable {e next : Expected} {n : Nat}

theorem fromUTF8?_toUTF8 (text : String) : String.fromUTF8? text.toUTF8 = some text := by
  unfold String.fromUTF8?
  rw [String.toUTF8_eq_toByteArray, dif_pos text.isValidUTF8]
  rfl

/-! ## Octets as a list -/

/-- The induction is on the octets that are still to come. -/
theorem toList_loop_of_drop {octets : ByteArray} {i : Nat} {done os : List UInt8}
    (h : octets.data.toList.drop i = os) : ByteArray.toList.loop octets i done = done.reverse ++ os := by
  have hsize : octets.data.toList.length = octets.size := Array.length_toList
  induction os generalizing i done with
  | nil =>
    have hle := List.drop_eq_nil_iff.mp h
    rw [ByteArray.toList.loop, if_neg (by omega), List.append_nil]
  | cons o os ih =>
    have hlt : i < octets.data.toList.length := by
      apply Nat.lt_of_not_le
      intro hle
      rw [List.drop_eq_nil_of_le hle] at h
      contradiction
    rw [List.drop_eq_getElem_cons hlt] at h
    obtain ⟨ho, hos⟩ := List.cons.inj h
    have hget : octets.get! i = o := by
      rw [← ho]
      exact getElem!_pos octets.data i hlt
    rw [ByteArray.toList.loop, if_pos (by omega), hget, ih hos, List.reverse_cons, List.append_assoc]
    rfl

theorem toList_toByteArray (octets : List UInt8) : octets.toByteArray.toList = octets := by
  unfold ByteArray.toList
  rw [toList_loop_of_drop rfl, List.drop_zero, List.toList_data_toByteArray]
  rfl

/-! ## The octets of a character -/

theorem toNat_ofNat_of_lt (h : n < 256) : (UInt8.ofNat n).toNat = n := by
  simp [Nat.mod_eq_of_lt h]

/-- What must follow the first octet, by its number. -/
theorem afterFirst?_ofNat (h : n < 256) : afterFirst? (.ofNat n) =
    if n < 0x80 then some {}
    else if n < 0xC2 then none
    else if n < 0xE0 then some ⟨1, 0x80, 0xBF⟩
    else if n = 0xE0 then some ⟨2, 0xA0, 0xBF⟩
    else if n = 0xED then some ⟨2, 0x80, 0x9F⟩
    else if n < 0xF0 then some ⟨2, 0x80, 0xBF⟩
    else if n = 0xF0 then some ⟨3, 0x90, 0xBF⟩
    else if n < 0xF4 then some ⟨3, 0x80, 0xBF⟩
    else if n = 0xF4 then some ⟨3, 0x80, 0x8F⟩
    else none := by
  simp only [afterFirst?, UInt8.lt_iff_toNat_lt, ← UInt8.toNat_inj, toNat_ofNat_of_lt h]
  rfl

/-- The bounds for the next octet leave it room. -/
def Expected.Allows (e : Expected) (n : Nat) : Prop := e.least.toNat ≤ n ∧ n ≤ e.greatest.toNat

theorem faultFrom_cons {o : UInt8} (h : step? e o = some next) (index : Nat) (os : List UInt8) :
    faultFrom e index (o :: os) = faultFrom next (index + 1) os := by
  rw [faultFrom, h]

theorem faultFrom_allowed {m : Nat} (hm : e.octets = m + 1) (h : e.Allows n) (hn : n < 256) (index : Nat)
    (os : List UInt8) :
    faultFrom e index (.ofNat n :: os) = faultFrom { octets := m } (index + 1) os := by
  refine faultFrom_cons ?_ index os
  simp only [step?, hm, UInt8.le_iff_toNat_le, toNat_ofNat_of_lt hn]
  exact if_pos h

/-- An octet that continues a character within the usual bounds. -/
theorem faultFrom_continued (m : Nat) (h : 0x80 ≤ n) (h' : n ≤ 0xBF) (index : Nat) (os : List UInt8) :
    faultFrom { octets := m + 1 } index (.ofNat n :: os) = faultFrom { octets := m } (index + 1) os :=
  faultFrom_allowed rfl ⟨h, h'⟩ (by omega) index os

/-- The narrower bounds leave out what two octets can say, and the surrogates. -/
theorem exists_step?_of_three {v : Nat} (hleast : 0x800 ≤ v) (hgreatest : v ≤ 0xFFFF)
    (hvalid : v < 0xD800 ∨ 0xDFFF < v) :
    ∃ e, step? {} (.ofNat (v / 4096 % 16 + 224)) = some e ∧ e.octets = 2 ∧
      e.Allows (v / 64 % 64 + 128) := by
  show ∃ e, afterFirst? _ = some e ∧ _
  rw [afterFirst?_ofNat (by omega), if_neg (by omega), if_neg (by omega), if_neg (by omega)]
  split
  · refine ⟨_, rfl, rfl, ?_⟩
    show 0xA0 ≤ _ ∧ _ ≤ 0xBF
    omega
  · split
    · refine ⟨_, rfl, rfl, ?_⟩
      show 0x80 ≤ _ ∧ _ ≤ 0x9F
      omega
    · rw [if_pos (by omega)]
      refine ⟨_, rfl, rfl, ?_⟩
      show 0x80 ≤ _ ∧ _ ≤ 0xBF
      omega

/-- The narrower bounds leave out what three octets can say, and what is beyond the last character. -/
theorem exists_step?_of_four {v : Nat} (hleast : 0x10000 ≤ v) (hgreatest : v < 0x110000) :
    ∃ e, step? {} (.ofNat (v / 262144 % 8 + 240)) = some e ∧ e.octets = 3 ∧
      e.Allows (v / 4096 % 64 + 128) := by
  show ∃ e, afterFirst? _ = some e ∧ _
  rw [afterFirst?_ofNat (by omega), if_neg (by omega), if_neg (by omega), if_neg (by omega),
    if_neg (by omega), if_neg (by omega), if_neg (by omega)]
  split
  · refine ⟨_, rfl, rfl, ?_⟩
    show 0x90 ≤ _ ∧ _ ≤ 0xBF
    omega
  · split
    · refine ⟨_, rfl, rfl, ?_⟩
      show 0x80 ≤ _ ∧ _ ≤ 0xBF
      omega
    · rw [if_pos (by omega)]
      refine ⟨_, rfl, rfl, ?_⟩
      show 0x80 ≤ _ ∧ _ ≤ 0x8F
      omega

/-- The octets of a character follow one another as they must. -/
theorem exists_faultFrom_utf8EncodeChar (c : Char) (index : Nat) (os : List UInt8) :
    ∃ index', faultFrom {} index (String.utf8EncodeChar c ++ os) = faultFrom {} index' os := by
  have hvalid : c.val.toNat < 0xD800 ∨ 0xDFFF < c.val.toNat ∧ c.val.toNat < 0x110000 := c.valid
  unfold String.utf8EncodeChar
  generalize c.val.toNat = v at hvalid
  dsimp only
  split
  · have hfirst : step? {} (.ofNat v) = some {} := by
      show afterFirst? _ = _
      rw [afterFirst?_ofNat (by omega), if_pos (by omega)]
    exact ⟨index + 1, faultFrom_cons hfirst index os⟩
  · split
    · have hfirst : step? {} (.ofNat (v / 64 % 32 + 192)) = some { octets := 1 } := by
        show afterFirst? _ = _
        rw [afterFirst?_ofNat (by omega), if_neg (by omega), if_neg (by omega), if_pos (by omega)]
      refine ⟨index + 2, ?_⟩
      rw [List.cons_append, faultFrom_cons hfirst, List.cons_append, List.nil_append]
      exact faultFrom_continued 0 (by omega) (by omega) _ _
    · split
      · obtain ⟨e, hfirst, hoctets, hallows⟩ :=
          exists_step?_of_three (v := v) (by omega) (by omega) (by omega)
        refine ⟨index + 3, ?_⟩
        rw [List.cons_append, faultFrom_cons hfirst, List.cons_append,
          faultFrom_allowed hoctets hallows (by omega), List.cons_append, List.nil_append]
        exact faultFrom_continued 0 (by omega) (by omega) _ _
      · obtain ⟨e, hfirst, hoctets, hallows⟩ := exists_step?_of_four (v := v) (by omega) (by omega)
        refine ⟨index + 4, ?_⟩
        rw [List.cons_append, faultFrom_cons hfirst, List.cons_append,
          faultFrom_allowed hoctets hallows (by omega), List.cons_append,
          faultFrom_continued 1 (by omega) (by omega), List.cons_append, List.nil_append]
        exact faultFrom_continued 0 (by omega) (by omega) _ _

/-- The induction is on the characters; each of them leaves off where the next begins. -/
theorem faultFrom_utf8Encode (cs : List Char) (index : Nat) :
    faultFrom {} index (cs.flatMap String.utf8EncodeChar) = none := by
  induction cs generalizing index with
  | nil => rfl
  | cons c cs ih =>
    obtain ⟨index', h⟩ :=
      exists_faultFrom_utf8EncodeChar c index (cs.flatMap String.utf8EncodeChar)
    rw [List.flatMap_cons, h]
    exact ih index'

/-- **Texts.** No octet of a text rules it out. -/
theorem fault?_toUTF8 (text : String) : fault? text.toUTF8 = none := by
  unfold fault?
  rw [← String.ofList_toList (s := text), String.toUTF8_eq_toByteArray, String.toByteArray_ofList]
  show faultFrom {} 0 (text.toList.flatMap String.utf8EncodeChar).toByteArray.toList = none
  rw [toList_toByteArray]
  exact faultFrom_utf8Encode text.toList 0

end ToolchainChoice.Text.Utf8
