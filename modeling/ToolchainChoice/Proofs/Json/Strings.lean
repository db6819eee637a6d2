import Mathlib.Tactic.SplitIfs
import ToolchainChoice.Json.Decode
import ToolchainChoice.Json.Encode

/-!
# JSON strings

A string is read back from its text, whatever is in it and whatever follows its closing quote. Each
symbol is written by itself. A character beyond the first 65536 is written by two code units, which
are read as the two halves of it; they are put together when the whole string has been read, and so
are two halves that stood side by side before. Nothing else changes.
-/
namespace ToolchainChoice

open Text (Half Symbol)

namespace Symbols

/-- A half is kept where no low half follows that belongs to it. -/
theorem paired_half {h : Half} {symbols : Symbols}
    (hnext : ∀ low, symbols.head? = some (.half low) → h.join? low = none) :
    paired (.half h :: symbols) = .half h :: paired symbols := by
  cases symbols with
  | nil => rfl
  | cons s symbols =>
    cases s with
    | char c =>
      rw [paired]
      simp
    | half low => rw [paired, hnext low rfl]

theorem paired_join {high low : Half} {c : Char} (h : high.join? low = some c) (symbols : Symbols) :
    paired (.half high :: .half low :: symbols) = .char c :: paired symbols := by
  rw [paired, h]

end Symbols

namespace Json

open Number (hexDigits hexValue? hexValue?_hexDigits length_hexDigits)

variable {c : Char} {unit : Nat} {symbol : Symbol}

/-! ## Code units -/

theorem ofCode?_toNat (c : Char) : Symbol.ofCode? c.toNat = some (.char c) := by
  have hvalid : c.toNat.isValidChar := c.valid
  unfold Symbol.ofCode?
  rw [dif_pos hvalid]
  rfl

theorem ofCode?_half (h : Half) : Symbol.ofCode? h.code = some (.half h) := by
  have hhalf := h.isHalf
  have hvalid : ¬h.code.isValidChar := by
    unfold Nat.isValidChar
    omega
  unfold Symbol.ofCode?
  rw [dif_neg hvalid, dif_pos hhalf]

theorem exists_hexDigits (h : unit < 0x10000) :
    ∃ p q r s, hexDigits 4 unit = [p, q, r, s] ∧ hexValue? [p, q, r, s] = some unit := by
  have hlength : (hexDigits 4 unit).length = 4 := length_hexDigits 4 unit
  have hvalue : hexValue? (hexDigits 4 unit) = some unit := hexValue?_hexDigits h
  match hexDigits 4 unit, hlength, hvalue with
  | [p, q, r, s], _, hvalue => exact ⟨p, q, r, s, rfl, hvalue⟩

theorem symbolsTail_unit (h : unit < 0x10000) (hsymbol : Symbol.ofCode? unit = some symbol)
    (rest : List Char) :
    symbolsTail (escapeUnit unit ++ rest) =
      (symbolsTail rest).map fun (s, rest) => (symbol :: s, rest) := by
  obtain ⟨p, q, r, s, hdigits, hvalue⟩ := exists_hexDigits h
  rw [escapeUnit, hdigits]
  simp only [List.cons_append, List.nil_append]
  rw [symbolsTail, hvalue, Option.bind_some, hsymbol]

/-- A character beyond the first 65536 has two code units, and they are its halves. -/
theorem exists_halves (h : 0x10000 ≤ c.toNat) :
    ∃ high low : Half, codeUnits c = [high.code, low.code] ∧ high.code ≤ 0xDBFF ∧
      high.join? low = some c := by
  have hmost : c.toNat < 0x110000 := by
    have hvalid : c.toNat.isValidChar := c.valid
    unfold Nat.isValidChar at hvalid
    omega
  let high : Half := ⟨0xD800 + (c.toNat - 0x10000) / 0x400, by omega⟩
  let low : Half := ⟨0xDC00 + (c.toNat - 0x10000) % 0x400, by omega⟩
  have hhigh : high.code ≤ 0xDBFF := by
    show 0xD800 + (c.toNat - 0x10000) / 0x400 ≤ 0xDBFF
    omega
  have hlow : 0xDC00 ≤ low.code := Nat.le_add_right ..
  have hsum : 0x10000 + (high.code - 0xD800) * 0x400 + (low.code - 0xDC00) = c.toNat := by
    show 0x10000 + (0xD800 + (c.toNat - 0x10000) / 0x400 - 0xD800) * 0x400 +
      (0xDC00 + (c.toNat - 0x10000) % 0x400 - 0xDC00) = c.toNat
    omega
  refine ⟨high, low, ?_, hhigh, ?_⟩
  · unfold codeUnits
    rw [if_neg (by omega)]
  · unfold Half.join?
    rw [if_pos ⟨hhigh, hlow⟩, hsum, Char.ofNat_toNat]

/-! ## Symbols -/

/-- What is read of a symbol before halves are put together. -/
def spread : Symbol → Symbols
  | .char c => (codeUnits c).filterMap Symbol.ofCode?
  | .half h => [.half h]

theorem spread_of_lt (h : c.toNat < 0x10000) : spread (.char c) = [.char c] := by
  simp [spread, codeUnits, h, ofCode?_toNat]

theorem exists_spread (h : 0x10000 ≤ c.toNat) :
    ∃ high low : Half, spread (.char c) = [.half high, .half low] ∧ high.code ≤ 0xDBFF ∧
      high.join? low = some c := by
  obtain ⟨high, low, hunits, hhigh, hjoin⟩ := exists_halves h
  exact ⟨high, low, by simp [spread, hunits, ofCode?_half], hhigh, hjoin⟩

theorem symbolsTail_codeUnits (c : Char) (rest : List Char) :
    symbolsTail ((codeUnits c).flatMap escapeUnit ++ rest) =
      (symbolsTail rest).map fun (s, rest) => (spread (.char c) ++ s, rest) := by
  by_cases h : c.toNat < 0x10000
  · have hunits : codeUnits c = [c.toNat] := by
      unfold codeUnits
      rw [if_pos h]
    rw [hunits, spread_of_lt h]
    simpa using symbolsTail_unit h (ofCode?_toNat c) rest
  · obtain ⟨high, low, hunits, hhigh, hjoin⟩ := exists_halves (Nat.not_lt.mp h)
    have hread : spread (.char c) = [.half high, .half low] := by
      simp [spread, hunits, ofCode?_half]
    have hlow := low.isHalf
    rw [hunits, hread]
    simp only [List.flatMap_cons, List.flatMap_nil, List.append_nil, List.append_assoc]
    rw [symbolsTail_unit (by omega) (ofCode?_half high),
      symbolsTail_unit (by omega) (ofCode?_half low), Option.map_map]
    rfl

/-- A character that stands for itself. -/
theorem symbolsTail_self (hquote : c ≠ '"') (hslash : c ≠ '\\') (hspace : ' ' ≤ c)
    (rest : List Char) :
    symbolsTail (c :: rest) = (symbolsTail rest).map fun (s, rest) => (.char c :: s, rest) := by
  have hcontrol : ¬c < ' ' := Char.not_lt.mpr hspace
  rw [symbolsTail, if_neg hcontrol]
  · exact fun h => absurd h hquote
  · exact fun _ _ _ _ _ h => absurd h hslash
  · exact fun _ _ h => absurd h hslash

theorem symbolsTail_escape (c : Char) (rest : List Char) :
    symbolsTail (escape c ++ rest) =
      (symbolsTail rest).map fun (s, rest) => (spread (.char c) ++ s, rest) := by
  unfold escape
  split_ifs with hquote hslash hfeed hreturn htab hform hback hprintable
  · subst hquote; simp [symbolsTail, shortEscape?, spread_of_lt]
  · subst hslash; simp [symbolsTail, shortEscape?, spread_of_lt]
  · subst hfeed; simp [symbolsTail, shortEscape?, spread_of_lt]
  · subst hreturn; simp [symbolsTail, shortEscape?, spread_of_lt]
  · subst htab; simp [symbolsTail, shortEscape?, spread_of_lt]
  · subst hform; simp [symbolsTail, shortEscape?, spread_of_lt]
  · subst hback; simp [symbolsTail, shortEscape?, spread_of_lt]
  · have hascii : c.toNat ≤ '~'.toNat := hprintable.2
    have hone : c.toNat < 0x10000 := Nat.lt_of_le_of_lt hascii (by decide)
    rw [spread_of_lt hone]
    exact symbolsTail_self hquote hslash hprintable.1 rest
  · exact symbolsTail_codeUnits c rest

theorem symbolsTail_escapeSymbol (s : Symbol) (rest : List Char) :
    symbolsTail (escapeSymbol s ++ rest) =
      (symbolsTail rest).map fun (t, rest) => (spread s ++ t, rest) := by
  cases s with
  | char c => exact symbolsTail_escape c rest
  | half h =>
    have hcode := h.isHalf
    exact symbolsTail_unit (by omega) (ofCode?_half h) rest

/-! ## Strings -/

/-- A string is read up to its closing quote. The induction is on its symbols. -/
theorem symbolsTail_quote (text : Symbols) (rest : List Char) :
    symbolsTail (text.flatMap escapeSymbol ++ '"' :: rest) = some (text.flatMap spread, rest) := by
  induction text with
  | nil => simp [symbolsTail]
  | cons s text ih =>
    rw [List.flatMap_cons, List.append_assoc, symbolsTail_escapeSymbol, ih]
    rfl

/-- No low half comes first of what is read of a text that does not begin with a half. -/
theorem join?_of_head?_spread {h low : Half} {text : Symbols}
    (htext : ∀ half rest, text ≠ .half half :: rest)
    (hlow : (text.flatMap spread).head? = some (.half low)) : h.join? low = none := by
  cases text with
  | nil => contradiction
  | cons s text =>
    cases s with
    | half half => exact absurd rfl (htext half text)
    | char c =>
      by_cases hc : c.toNat < 0x10000
      · rw [List.flatMap_cons, spread_of_lt hc] at hlow
        cases hlow
      · obtain ⟨high, low', hspread, hhigh, -⟩ := exists_spread (Nat.not_lt.mp hc)
        rw [List.flatMap_cons, hspread] at hlow
        obtain rfl : high = low := by simpa using hlow
        unfold Half.join?
        rw [if_neg (by omega)]

/-- Putting halves together undoes the spreading. The induction is on how halves are put together in
the text itself. -/
theorem paired_flatMap_spread (text : Symbols) :
    Symbols.paired (text.flatMap spread) = text.paired := by
  fun_induction Symbols.paired text with
  | case1 high low text c hjoin ih =>
    rw [← ih]
    exact Symbols.paired_join hjoin _
  | case2 high low text hjoin ih =>
    rw [← ih]
    refine Symbols.paired_half fun low' hlow' => ?_
    obtain rfl : low = low' := by simpa [spread] using hlow'
    exact hjoin
  | case3 s text hpair ih =>
    cases s with
    | char c =>
      by_cases hc : c.toNat < 0x10000
      · rw [List.flatMap_cons, spread_of_lt hc, List.singleton_append, Symbols.paired_char, ih]
      · obtain ⟨high, low, hspread, -, hjoin⟩ := exists_spread (Nat.not_lt.mp hc)
        rw [List.flatMap_cons, hspread, ← ih]
        exact Symbols.paired_join hjoin _
    | half h =>
      rw [← ih]
      refine Symbols.paired_half fun low hlow => join?_of_head?_spread ?_ hlow
      rintro half rest rfl
      exact hpair h half rest rfl rfl
  | case4 => rfl

theorem stringTail_quote (text : Symbols) (rest : List Char) :
    stringTail (text.flatMap escapeSymbol ++ '"' :: rest) = some (text.paired, rest) := by
  rw [stringTail, symbolsTail_quote, ← paired_flatMap_spread]
  rfl

end Json

end ToolchainChoice
