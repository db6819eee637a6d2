import Mathlib.Data.List.DropRight
import ToolchainChoice.Proofs.Json.Strings

/-!
# The grammar of JSON texts

The texts of a value, with blanks wherever the reader skips them. Every text of the grammar is read as
its value, whatever follows it, if the bound on the nesting is greater than its length. A number ends
where no character of a number follows, so this is asked of the rest.

A number of the grammar is a literal. The words that the reader takes for floats without digits are
left out, as no text with them is standard.
-/
namespace ToolchainChoice.Json

/-! ## Numbers -/

/-- What follows a value does not go on with a number. -/
def Ends (rest : List Char) : Prop := ∀ c ∈ rest.head?, isNumberChar c = false

variable {cs rest : List Char}

theorem isNumberChar_of_isDigit {c : Char} (h : c.isDigit = true) : isNumberChar c = true := by
  unfold isNumberChar
  rw [h]
  rfl

/-- A reader of a part of a number takes characters of numbers off the text. -/
def TakesNumber (cs rest : List Char) : Prop :=
  ∃ taken, cs = taken ++ rest ∧ ∀ c ∈ taken, isNumberChar c = true

theorem TakesNumber.refl (cs : List Char) : TakesNumber cs cs := ⟨[], rfl, by simp⟩

theorem TakesNumber.cons {c : Char} (hc : isNumberChar c = true) (h : TakesNumber cs rest) :
    TakesNumber (c :: cs) rest := by
  obtain ⟨taken, rfl, htaken⟩ := h
  exact ⟨c :: taken, rfl, List.forall_mem_cons.mpr ⟨hc, htaken⟩⟩

theorem TakesNumber.trans {mid : List Char} (h : TakesNumber cs mid) (h' : TakesNumber mid rest) :
    TakesNumber cs rest := by
  obtain ⟨first, rfl, hfirst⟩ := h
  obtain ⟨second, rfl, hsecond⟩ := h'
  refine ⟨first ++ second, (List.append_assoc ..).symm, fun c hc => ?_⟩
  rcases List.mem_append.mp hc with hc | hc
  · exact hfirst c hc
  · exact hsecond c hc

theorem takesNumber_of_digits? (h : digits? cs = some rest) : TakesNumber cs rest := by
  unfold digits? at h
  split at h
  · rename_i c cs
    split at h
    · rename_i hc
      obtain rfl := Option.some.inj h
      have hsplit := (List.takeWhile_append_dropWhile (p := Char.isDigit) (l := cs)).symm
      have hdigits : ∀ d ∈ cs.takeWhile Char.isDigit, isNumberChar d = true := fun d hd =>
        isNumberChar_of_isDigit (List.all_eq_true.mp List.all_takeWhile d hd)
      exact .cons (isNumberChar_of_isDigit hc) ⟨_, hsplit, hdigits⟩
    · contradiction
  · contradiction

theorem takesNumber_of_whole? (h : whole? cs = some rest) : TakesNumber cs rest := by
  unfold whole? at h
  split at h
  · obtain rfl := Option.some.inj h
    exact .cons (by decide) (.refl _)
  · exact takesNumber_of_digits? h

theorem takesNumber_of_fraction? (h : fraction? cs = some rest) : TakesNumber cs rest := by
  unfold fraction? at h
  split at h
  · exact .cons (by decide) (takesNumber_of_digits? h)
  · obtain rfl := Option.some.inj h
    exact .refl _

theorem takesNumber_of_exponent? (h : exponent? cs = some rest) : TakesNumber cs rest := by
  unfold exponent? at h
  split at h
  · rename_i c cs
    split at h
    · rename_i hc
      have hc : isNumberChar c = true := by
        rcases hc with rfl | rfl <;> decide
      split at h
      · exact .cons hc (.cons (by decide) (takesNumber_of_digits? h))
      · exact .cons hc (.cons (by decide) (takesNumber_of_digits? h))
      · exact .cons hc (takesNumber_of_digits? h)
    · obtain rfl := Option.some.inj h
      exact .refl _
  · obtain rfl := Option.some.inj h
    exact .refl _

theorem exists_digit_of_whole? (h : whole? cs = some rest) :
    ∃ c ds, cs = c :: ds ∧ c.isDigit = true := by
  unfold whole? at h
  split at h
  · exact ⟨'0', _, rfl, by decide⟩
  · unfold digits? at h
    split at h
    · split at h
      · rename_i hc
        exact ⟨_, _, rfl, hc⟩
      · contradiction
    · contradiction

/-- Only characters of numbers, of which the first is a digit or a sign before one. -/
structure HasNumberForm (cs : List Char) : Prop where
  all : ∀ c ∈ cs, isNumberChar c = true
  head : ∃ c ds, c.isDigit = true ∧ (cs = c :: ds ∨ cs = '-' :: c :: ds)

theorem HasNumberForm.exists_cons (h : HasNumberForm cs) :
    ∃ c ds, cs = c :: ds ∧ isNumberChar c = true := by
  obtain ⟨c, ds, hc, rfl | rfl⟩ := h.head
  · exact ⟨c, ds, rfl, isNumberChar_of_isDigit hc⟩
  · exact ⟨'-', c :: ds, rfl, by decide⟩

theorem hasNumberForm_of_parts
    (h : (((whole? cs).bind fraction?).bind exponent?).any List.isEmpty = true) :
    (∀ c ∈ cs, isNumberChar c = true) ∧ ∃ c ds, cs = c :: ds ∧ c.isDigit = true := by
  cases hexponent : ((whole? cs).bind fraction?).bind exponent? with
  | none =>
    rw [hexponent] at h
    contradiction
  | some rest =>
    rw [hexponent] at h
    obtain rfl := List.isEmpty_iff.mp h
    obtain ⟨mid, hmid, hexponent⟩ := Option.bind_eq_some_iff.mp hexponent
    obtain ⟨start, hwhole, hfraction⟩ := Option.bind_eq_some_iff.mp hmid
    obtain ⟨taken, hcs, htaken⟩ := ((takesNumber_of_whole? hwhole).trans
      (takesNumber_of_fraction? hfraction)).trans (takesNumber_of_exponent? hexponent)
    rw [List.append_nil] at hcs
    exact ⟨hcs ▸ htaken, exists_digit_of_whole? hwhole⟩

theorem hasNumberForm_of_isNumber (h : isNumber cs = true) : HasNumberForm cs := by
  unfold isNumber at h
  split at h
  · obtain ⟨hall, c, ds, rfl, hc⟩ := hasNumberForm_of_parts h
    exact ⟨List.forall_mem_cons.mpr ⟨by decide, hall⟩, c, ds, hc, .inr rfl⟩
  · obtain ⟨hall, c, ds, rfl, hc⟩ := hasNumberForm_of_parts h
    exact ⟨hall, c, ds, hc, .inl rfl⟩

/-- A literal is read as far as it goes. -/
theorem number?_append (h : isNumber cs = true) (hrest : Ends rest) :
    number? (cs ++ rest) = some (.number (String.ofList cs), rest) := by
  obtain ⟨hall, c, ds, hc, hcs⟩ := hasNumberForm_of_isNumber h
  have hword : c ≠ 'N' ∧ c ≠ 'I' := by
    refine ⟨?_, ?_⟩ <;> rintro rfl <;> contradiction
  have htake : (cs ++ rest).takeWhile isNumberChar = cs := by
    rw [List.takeWhile_append_of_pos hall]
    cases rest with
    | nil => simp
    | cons d rest =>
      rw [List.takeWhile_cons_of_neg (by simp [hrest d rfl]), List.append_nil]
  have hdrop : (cs ++ rest).dropWhile isNumberChar = rest := by
    rw [List.dropWhile_append_of_pos hall]
    cases rest with
    | nil => rfl
    | cons d rest => rw [List.dropWhile_cons_of_neg (by simp [hrest d rfl])]
  unfold number?
  split
  · rename_i heq
    rcases hcs with rfl | rfl
    · exact absurd (List.cons.inj heq).1 hword.1
    · exact absurd (List.cons.inj heq).1 (by decide)
  · rename_i heq
    rcases hcs with rfl | rfl
    · exact absurd (List.cons.inj heq).1 hword.2
    · exact absurd (List.cons.inj heq).1 (by decide)
  · rename_i heq
    rcases hcs with rfl | rfl
    · obtain rfl := (List.cons.inj heq).1
      contradiction
    · exact absurd (List.cons.inj (List.cons.inj heq).2).1 hword.2
  · rw [htake, hdrop, if_pos h]

/-! ## Values -/

/-- What a reader is asked for. -/
inductive Part where
  | value (j : Json)
  | items (js : List Json)
  | members (ms : List (Symbols × Json))

/-- The texts of a value, and of the items or members of one up to the closing bracket. Blanks may
stand before a value or a key and before a closing bracket. What a string or a key denotes has its
halves put together. -/
inductive Written : Part → List Char → Prop where
  | space {p : Part} {c : Char} {cs : List Char} (hc : isSpace c = true) (h : Written p cs) :
      Written p (c :: cs)
  | null : Written (.value .null) "null".toList
  | bool (b : Bool) : Written (.value (.bool b)) (inline (.bool b))
  | number {literal : String} (h : isNumber literal.toList = true) :
      Written (.value (.number literal)) literal.toList
  | string (text : Symbols) : Written (.value (.string text.paired)) (quote text)
  | emptyArray : Written (.value (.array [])) ['[', ']']
  | array {items : List Json} {cs : List Char} (h : Written (.items items) cs) :
      Written (.value (.array items)) ('[' :: cs)
  | emptyObject : Written (.value (.object [])) ['\x7b', '\x7d']
  | object {members : List (Symbols × Json)} {cs : List Char} (h : Written (.members members) cs) :
      Written (.value (.object members)) ('\x7b' :: cs)
  | lastItem {item : Json} {cs gap : List Char} (h : Written (.value item) cs)
      (hgap : ∀ c ∈ gap, isSpace c = true) : Written (.items [item]) (cs ++ (gap ++ [']']))
  | item {item : Json} {items : List Json} {cs ds : List Char} (h : Written (.value item) cs)
      (hs : Written (.items items) ds) : Written (.items (item :: items)) (cs ++ ',' :: ds)
  | lastMember {value : Json} {cs gap : List Char} (key : Symbols) (h : Written (.value value) cs)
      (hgap : ∀ c ∈ gap, isSpace c = true) :
      Written (.members [(key.paired, value)]) (quote key ++ ':' :: (cs ++ (gap ++ ['\x7d'])))
  | member {value : Json} {members : List (Symbols × Json)} {cs ds : List Char} (key : Symbols)
      (h : Written (.value value) cs) (hs : Written (.members members) ds) :
      Written (.members ((key.paired, value) :: members)) (quote key ++ ':' :: (cs ++ ',' :: ds))

/-! ## The reader -/

/-- A part is read at the start of a text, and `rest` follows it. -/
def Part.IsRead (fuel : Nat) (cs rest : List Char) : Part → Prop
  | .value j => value? fuel cs = some (j, rest)
  | .items js => items? fuel cs = some (js, rest)
  | .members ms => members? fuel cs = some (ms, rest)

theorem skipSpace_gap {gap : List Char} (hgap : ∀ c ∈ gap, isSpace c = true) {c : Char}
    (hc : isSpace c = false) (rest : List Char) : skipSpace (gap ++ c :: rest) = c :: rest := by
  unfold skipSpace
  rw [List.dropWhile_append_of_pos hgap, List.dropWhile_cons_of_neg (by simp [hc])]

theorem skipSpace_idem (cs : List Char) : skipSpace (skipSpace cs) = skipSpace cs :=
  List.dropWhile_idempotent _ _

theorem value?_skipSpace (fuel : Nat) (cs : List Char) :
    value? fuel (skipSpace cs) = value? fuel cs := by
  cases fuel with
  | zero => rfl
  | succ fuel => rw [value?, value?, skipSpace_idem]

theorem items?_skipSpace (fuel : Nat) (cs : List Char) :
    items? fuel (skipSpace cs) = items? fuel cs := by
  cases fuel with
  | zero => rfl
  | succ fuel => rw [items?, items?, value?_skipSpace]

theorem members?_skipSpace (fuel : Nat) (cs : List Char) :
    members? fuel (skipSpace cs) = members? fuel cs := by
  cases fuel with
  | zero => rfl
  | succ fuel => rw [members?, members?, skipSpace_idem]

theorem Part.isRead_skipSpace (p : Part) (fuel : Nat) (cs rest : List Char) :
    p.IsRead fuel (skipSpace cs) rest ↔ p.IsRead fuel cs rest := by
  cases p with
  | value j => rw [IsRead, IsRead, value?_skipSpace]
  | items js => rw [IsRead, IsRead, items?_skipSpace]
  | members ms => rw [IsRead, IsRead, members?_skipSpace]

/-- The characters that tell the reader of a value what to read, numbers apart. -/
def signals : List Char := [' ', '\n', '\r', '\t', 'n', 't', 'f', '"', '[', '\x7b']

theorem not_mem_of_isNumberChar {c : Char} (hc : isNumberChar c = true) : c ∉ signals := by
  intro hmem
  have hall : signals.all (fun c => !isNumberChar c) = true := by decide
  have hno := List.all_eq_true.mp hall c hmem
  rw [hc] at hno
  contradiction

theorem value?_of_number {fuel : Nat} {c : Char} {ds : List Char} (hc : c ∉ signals) :
    value? (fuel + 1) (c :: ds) = number? (c :: ds) := by
  have hskip : skipSpace (c :: ds) = c :: ds := by
    refine List.dropWhile_cons_of_neg ?_
    simp_all [isSpace, signals]
  rw [value?, hskip]
  split <;> simp_all [signals]

theorem value?_bracket (fuel : Nat) (cs : List Char) :
    value? (fuel + 1) ('[' :: cs) =
      match skipSpace cs with
      | ']' :: rest => some (.array [], rest)
      | cs => (items? fuel cs).map fun (items, rest) => (.array items, rest) := by
  rw [value?]
  rfl

theorem value?_brace (fuel : Nat) (cs : List Char) :
    value? (fuel + 1) ('\x7b' :: cs) =
      match skipSpace cs with
      | '\x7d' :: rest => some (.object [], rest)
      | cs => (members? fuel cs).map fun (members, rest) => (.object members, rest) := by
  rw [value?]
  rfl

/-- No item begins with the bracket that closes an array. -/
theorem items?_closing (fuel : Nat) (rest : List Char) : items? fuel (']' :: rest) = none := by
  cases fuel with
  | zero => rfl
  | succ fuel =>
    cases fuel with
    | zero => rfl
    | succ fuel =>
      rw [items?, value?_of_number (by decide)]
      rfl

theorem members?_closing (fuel : Nat) (rest : List Char) :
    members? fuel ('\x7d' :: rest) = none := by
  cases fuel with
  | zero => rfl
  | succ fuel =>
    rw [members?]
    rfl

theorem ends_cons {c : Char} (hc : isNumberChar c = false) (rest : List Char) :
    Ends (c :: rest) := by
  intro d hd
  obtain rfl := Option.some.inj hd
  exact hc

theorem ends_gap {gap : List Char} (hgap : ∀ c ∈ gap, isSpace c = true) {c : Char}
    (hc : isNumberChar c = false) (rest : List Char) : Ends (gap ++ c :: rest) := by
  cases gap with
  | nil => exact ends_cons hc rest
  | cons s gap =>
    have hs := hgap s List.mem_cons_self
    refine ends_cons ?_ _
    unfold isSpace at hs
    simp only [Bool.or_eq_true, beq_iff_eq] at hs
    rcases hs with ((rfl | rfl) | rfl) | rfl <;> decide

theorem quote_append (text : Symbols) (rest : List Char) :
    quote text ++ rest = '"' :: (text.flatMap escapeSymbol ++ '"' :: rest) := by
  simp [quote]

theorem value?_quote (fuel : Nat) (text : Symbols) (rest : List Char) :
    value? (fuel + 1) (quote text ++ rest) = some (.string text.paired, rest) := by
  have hread : value? (fuel + 1) (quote text ++ rest) =
      (stringTail (text.flatMap escapeSymbol ++ '"' :: rest)).map
        fun read => (.string read.1, read.2) := by
    rw [quote_append]
    rfl
  rw [hread, stringTail_quote, Option.map_some]

theorem skipSpace_member (key : Symbols) (cs : List Char) :
    skipSpace (quote key ++ ':' :: cs) =
      '"' :: (key.flatMap escapeSymbol ++ '"' :: ':' :: cs) := by
  rw [quote_append]
  rfl

theorem members?_last {fuel : Nat} {key : Symbols} {value : Json} {cs ds rest : List Char}
    (hvalue : value? fuel cs = some (value, ds)) (hclose : skipSpace ds = '\x7d' :: rest) :
    members? (fuel + 1) (quote key ++ ':' :: cs) = some ([(key.paired, value)], rest) := by
  have hcolon : skipSpace (':' :: cs) = ':' :: cs := rfl
  rw [members?, skipSpace_member]
  simp only [stringTail_quote, hcolon, hvalue, hclose]

theorem members?_more {fuel : Nat} {key : Symbols} {value : Json} {members : List (Symbols × Json)}
    {cs ds es rest : List Char} (hvalue : value? fuel cs = some (value, ds))
    (hcomma : skipSpace ds = ',' :: es) (hmembers : members? fuel es = some (members, rest)) :
    members? (fuel + 1) (quote key ++ ':' :: cs) = some ((key.paired, value) :: members, rest) := by
  have hcolon : skipSpace (':' :: cs) = ':' :: cs := rfl
  rw [members?, skipSpace_member]
  simp only [stringTail_quote, hcolon, hvalue, hcomma, hmembers, Option.map_some]

/-- Every text of the grammar is read. The induction is on how the text was put together; each token
takes a character at least, so the bound is never reached. -/
theorem Written.isRead {p : Part} {cs : List Char} (h : Written p cs) :
    ∀ {fuel : Nat} {rest : List Char}, cs.length < fuel → Ends rest →
      p.IsRead fuel (cs ++ rest) rest := by
  induction h with
  | @space p c cs hc h ih =>
    intro fuel rest hfuel hrest
    have hread := ih (Nat.lt_of_succ_lt hfuel) hrest
    have hskip : skipSpace (c :: cs ++ rest) = skipSpace (cs ++ rest) :=
      List.dropWhile_cons_of_pos hc
    rw [← Part.isRead_skipSpace, hskip, Part.isRead_skipSpace]
    exact hread
  | null =>
    rintro (_ | fuel) rest hfuel hrest
    · contradiction
    · rfl
  | bool b =>
    rintro (_ | fuel) rest hfuel hrest
    · contradiction
    · cases b <;> rfl
  | @number literal h =>
    rintro (_ | fuel) rest hfuel hrest
    · contradiction
    · obtain ⟨c, ds, hliteral, hc⟩ := (hasNumberForm_of_isNumber h).exists_cons
      have hnumber := number?_append h hrest
      rw [String.ofList_toList] at hnumber
      rw [Part.IsRead, ← hnumber, hliteral, List.cons_append]
      exact value?_of_number (not_mem_of_isNumberChar hc)
  | string text =>
    rintro (_ | fuel) rest hfuel hrest
    · contradiction
    · exact value?_quote fuel text rest
  | emptyArray | emptyObject =>
    rintro (_ | fuel) rest hfuel hrest
    · contradiction
    · rfl
  | @array items cs h ih =>
    rintro (_ | fuel) rest hfuel hrest
    · contradiction
    · have hitems : items? fuel (skipSpace (cs ++ rest)) = some (items, rest) := by
        rw [items?_skipSpace]
        exact ih (Nat.lt_of_succ_lt_succ hfuel) hrest
      rw [Part.IsRead, List.cons_append, value?_bracket]
      split
      · rename_i heq
        rw [heq, items?_closing] at hitems
        contradiction
      · rw [hitems, Option.map_some]
  | @object members cs h ih =>
    rintro (_ | fuel) rest hfuel hrest
    · contradiction
    · have hmembers : members? fuel (skipSpace (cs ++ rest)) = some (members, rest) := by
        rw [members?_skipSpace]
        exact ih (Nat.lt_of_succ_lt_succ hfuel) hrest
      rw [Part.IsRead, List.cons_append, value?_brace]
      split
      · rename_i heq
        rw [heq, members?_closing] at hmembers
        contradiction
      · rw [hmembers, Option.map_some]
  | @lastItem item cs gap h hgap ih =>
    rintro (_ | fuel) rest hfuel hrest
    · contradiction
    · simp only [List.length_append, List.length_singleton] at hfuel
      have hitem : value? fuel (cs ++ (gap ++ ']' :: rest)) = some (item, gap ++ ']' :: rest) :=
        ih (by omega) (ends_gap hgap (by decide) rest)
      have hclose : skipSpace (gap ++ ']' :: rest) = ']' :: rest :=
        skipSpace_gap hgap (by decide) rest
      simp only [Part.IsRead, List.append_assoc, List.singleton_append]
      rw [items?, hitem]
      simp only [hclose]
  | @item item items cs ds h hs ih ihs =>
    rintro (_ | fuel) rest hfuel hrest
    · contradiction
    · simp only [List.length_append, List.length_cons] at hfuel
      have hitem : value? fuel (cs ++ ',' :: (ds ++ rest)) = some (item, ',' :: (ds ++ rest)) :=
        ih (by omega) (ends_cons (by decide) _)
      have hitems : items? fuel (ds ++ rest) = some (items, rest) := ihs (by omega) hrest
      have hcomma : skipSpace (',' :: (ds ++ rest)) = ',' :: (ds ++ rest) := rfl
      simp only [Part.IsRead, List.append_assoc, List.cons_append]
      rw [items?, hitem]
      simp only [hcomma, hitems, Option.map_some]
  | @lastMember value cs gap key h hgap ih =>
    rintro (_ | fuel) rest hfuel hrest
    · contradiction
    · simp only [List.length_append, List.length_cons, List.length_nil] at hfuel
      have hvalue : value? fuel (cs ++ (gap ++ '\x7d' :: rest)) = some (value, gap ++ '\x7d' :: rest) :=
        ih (by omega) (ends_gap hgap (by decide) rest)
      have hclose : skipSpace (gap ++ '\x7d' :: rest) = '\x7d' :: rest :=
        skipSpace_gap hgap (by decide) rest
      simp only [Part.IsRead, List.append_assoc, List.cons_append, List.nil_append]
      exact members?_last hvalue hclose
  | @member value members cs ds key h hs ih ihs =>
    rintro (_ | fuel) rest hfuel hrest
    · contradiction
    · simp only [List.length_append, List.length_cons] at hfuel
      have hvalue : value? fuel (cs ++ ',' :: (ds ++ rest)) = some (value, ',' :: (ds ++ rest)) :=
        ih (by omega) (ends_cons (by decide) _)
      have hmembers : members? fuel (ds ++ rest) = some (members, rest) := ihs (by omega) hrest
      have hcomma : skipSpace (',' :: (ds ++ rest)) = ',' :: (ds ++ rest) := rfl
      simp only [Part.IsRead, List.append_assoc, List.cons_append]
      exact members?_more hvalue hcomma hmembers

end ToolchainChoice.Json
