import ToolchainChoice.Text.Blank

/-!
# Lines and tokens

The lines of a text are its pieces between line feeds, and its tokens are the pieces between blanks that
are not empty. A text without tokens is blank. Any other text begins with its first token, with blanks
before it and something after it that does not continue it (`BeginsWith`); this is the form in which a
reader that skips blanks and then takes a token meets it.
-/
namespace ToolchainChoice.Text

/-- The pieces between the line feeds, empty ones included. -/
def lines (cs : List Char) : List (List Char) := cs.splitOn '\n'

/-- The pieces between the blanks, without the empty ones. -/
def tokens (cs : List Char) : List (List Char) :=
  (cs.splitOnP isBlank).filter fun token => !token.isEmpty

variable {c : Char} {cs ds blanks token rest : List Char}

/-! ## Lines -/

/-- Pieces with a separator between them, piece by piece. -/
theorem intercalate_cons_eq_append (c : Char) (first : List Char) (more : List (List Char)) :
    [c].intercalate (first :: more) = first ++ more.flatMap (c :: ·) := by
  induction more generalizing first with
  | nil => simp
  | cons second more ih =>
    rw [List.intercalate_cons_cons, ih second]
    simp

theorem notMem_of_mem_splitOnP {p : Char → Bool} {piece : List Char} (hp : p c = true)
    (h : piece ∈ cs.splitOnP p) : c ∉ piece := by
  induction cs generalizing piece with
  | nil =>
    rw [List.splitOnP_nil, List.mem_singleton] at h
    simp [h]
  | cons d ds ih =>
    rw [List.splitOnP_cons_eq_if_modifyHead] at h
    split at h
    · rcases List.mem_cons.mp h with rfl | h
      · exact List.not_mem_nil
      · exact ih h
    · rename_i hd
      obtain ⟨first, more, hsplit⟩ := List.exists_cons_of_ne_nil (List.splitOnP_ne_nil p ds)
      rw [hsplit, List.modifyHead_cons] at h
      rcases List.mem_cons.mp h with rfl | h
      · intro hc
        rcases List.mem_cons.mp hc with rfl | hc
        · exact hd hp
        · exact ih (hsplit ▸ List.mem_cons_self) hc
      · exact ih (hsplit ▸ List.mem_cons_of_mem _ h)

theorem lineFeed_notMem_of_mem_lines {line : List Char} (h : line ∈ lines cs) : '\n' ∉ line := by
  rw [lines, List.splitOn_eq_splitOnP] at h
  exact notMem_of_mem_splitOnP rfl h

/-- A text is its lines with line feeds between them. -/
theorem exists_lines_eq (cs : List Char) :
    ∃ first more, lines cs = first :: more ∧ cs = first ++ more.flatMap ('\n' :: ·) := by
  obtain ⟨first, more, hlines⟩ := List.exists_cons_of_ne_nil (List.splitOn_ne_nil '\n' cs)
  refine ⟨first, more, hlines, ?_⟩
  rw [← intercalate_cons_eq_append, ← hlines]
  exact (List.intercalate_splitOn '\n').symm

/-! ## Tokens -/

/-- Nothing but blanks. -/
def IsBlankText (cs : List Char) : Prop := ∀ c ∈ cs, isBlank c = true

theorem tokens_append_cons (hc : isBlank c = true) (cs ds : List Char) :
    tokens (cs ++ c :: ds) = tokens cs ++ tokens ds := by
  rw [tokens, List.splitOnP_append_cons cs ds hc, List.filter_append]
  rfl

theorem tokens_cons_of_isBlank (hc : isBlank c = true) (cs : List Char) :
    tokens (c :: cs) = tokens cs :=
  tokens_append_cons hc [] cs

theorem tokens_append_of_isBlankText (h : IsBlankText blanks) (cs : List Char) :
    tokens (blanks ++ cs) = tokens cs := by
  induction blanks with
  | nil => rfl
  | cons c blanks ih =>
    rw [List.cons_append, tokens_cons_of_isBlank (h c List.mem_cons_self)]
    exact ih fun d hd => h d (List.mem_cons_of_mem c hd)

theorem tokens_of_isBlankText (h : IsBlankText cs) : tokens cs = [] := by
  have htokens := tokens_append_of_isBlankText h []
  rwa [List.append_nil] at htokens

theorem unbroken_of_all (h : (cs.all fun c => !isBlank c) = true) : ∀ c ∈ cs, isBlank c = false := by
  intro c hc
  simpa using List.all_eq_true.mp h c hc

theorem tokens_of_unbroken (hne : token ≠ []) (h : ∀ c ∈ token, isBlank c = false) :
    tokens token = [token] := by
  rw [tokens, List.splitOnP_eq_singleton h]
  simp [hne]

/-- The text begins with blanks, the token, and something that does not continue the token. -/
structure BeginsWith (cs blanks token rest : List Char) : Prop where
  text : cs = blanks ++ (token ++ rest)
  blank : IsBlankText blanks
  ne_nil : token ≠ []
  unbroken : ∀ c ∈ token, isBlank c = false
  ends : ∀ c ∈ rest.head?, isBlank c = true

/-- A text that is not blank begins with a token. -/
theorem isBlankText_or_exists_beginsWith (cs : List Char) :
    IsBlankText cs ∨ ∃ blanks token rest, BeginsWith cs blanks token rest := by
  cases hstart : cs.dropWhile isBlank with
  | nil =>
    have hall : cs.takeWhile isBlank = cs := by
      have hparts := List.takeWhile_append_dropWhile (p := isBlank) (l := cs)
      rwa [hstart, List.append_nil] at hparts
    exact .inl (hall ▸ List.all_eq_true.mp List.all_takeWhile)
  | cons c start =>
    have hc : isBlank c = false := by
      have hnot := List.head?_dropWhile_not isBlank cs
      rwa [hstart] at hnot
    refine .inr ⟨cs.takeWhile isBlank, (c :: start).takeWhile fun d => !isBlank d,
      (c :: start).dropWhile fun d => !isBlank d, ?_, ?_, ?_, ?_, ?_⟩
    · rw [List.takeWhile_append_dropWhile, ← hstart, List.takeWhile_append_dropWhile]
    · exact List.all_eq_true.mp List.all_takeWhile
    · simp [hc]
    · intro d hd
      simpa using List.all_eq_true.mp List.all_takeWhile d hd
    · intro d hd
      have hnot := List.head?_dropWhile_not (fun d => !isBlank d) (c :: start)
      rw [hd] at hnot
      simpa using hnot

namespace BeginsWith

variable (h : BeginsWith cs blanks token rest)

include h

theorem tokens_eq : tokens cs = token :: tokens rest := by
  rw [h.text, tokens_append_of_isBlankText h.blank]
  cases hrest : rest with
  | nil =>
    rw [List.append_nil, tokens_of_unbroken h.ne_nil h.unbroken, tokens_of_isBlankText]
    exact List.forall_mem_nil _
  | cons c rest' =>
    have hc : isBlank c = true := h.ends c (by rw [hrest]; rfl)
    rw [tokens_append_cons hc, tokens_of_unbroken h.ne_nil h.unbroken, tokens_cons_of_isBlank hc]
    rfl

/-- Where the token begins. -/
theorem exists_token_eq : ∃ c more, token = c :: more ∧ isBlank c = false := by
  obtain ⟨c, more, htoken⟩ := List.exists_cons_of_ne_nil h.ne_nil
  exact ⟨c, more, htoken, h.unbroken c (by simp [htoken])⟩

theorem takeWhile_eq : cs.takeWhile isBlank = blanks := by
  obtain ⟨c, more, rfl, hc⟩ := h.exists_token_eq
  rw [h.text, List.takeWhile_append_of_pos h.blank, List.cons_append,
    List.takeWhile_cons_of_neg (by simp [hc]), List.append_nil]

theorem dropWhile_eq : cs.dropWhile isBlank = token ++ rest := by
  obtain ⟨c, more, rfl, hc⟩ := h.exists_token_eq
  rw [h.text, List.dropWhile_append_of_pos h.blank, List.cons_append,
    List.dropWhile_cons_of_neg (by simp [hc])]

theorem takeWhile_token : (token ++ rest).takeWhile (fun c => !isBlank c) = token := by
  have hunbroken : ∀ c ∈ token, (!isBlank c) = true := by
    intro c hc
    simp [h.unbroken c hc]
  rw [List.takeWhile_append_of_pos hunbroken]
  cases hrest : rest with
  | nil => simp
  | cons c rest' =>
    have hc : isBlank c = true := h.ends c (by rw [hrest]; rfl)
    rw [List.takeWhile_cons_of_neg (by simp [hc]), List.append_nil]

theorem dropWhile_token : (token ++ rest).dropWhile (fun c => !isBlank c) = rest := by
  have hunbroken : ∀ c ∈ token, (!isBlank c) = true := by
    intro c hc
    simp [h.unbroken c hc]
  rw [List.dropWhile_append_of_pos hunbroken]
  cases hrest : rest with
  | nil => rfl
  | cons c rest' =>
    have hc : isBlank c = true := h.ends c (by rw [hrest]; rfl)
    rw [List.dropWhile_cons_of_neg (by simp [hc])]

/-- More text that begins with a blank does not continue the token. -/
theorem append (hds : ∀ c ∈ ds.head?, isBlank c = true) :
    BeginsWith (cs ++ ds) blanks token (rest ++ ds) where
  text := by rw [h.text, List.append_assoc, List.append_assoc]
  blank := h.blank
  ne_nil := h.ne_nil
  unbroken := h.unbroken
  ends := by
    intro c hc
    cases hrest : rest with
    | nil =>
      rw [hrest, List.nil_append] at hc
      exact hds c hc
    | cons d rest' =>
      rw [hrest, List.cons_append] at hc
      exact h.ends c (by rw [hrest]; exact hc)

/-- More blanks before the token are blanks before the token. -/
theorem append_left (hds : IsBlankText ds) : BeginsWith (ds ++ cs) (ds ++ blanks) token rest where
  text := by rw [h.text, List.append_assoc]
  blank := List.forall_mem_append.mpr ⟨hds, h.blank⟩
  ne_nil := h.ne_nil
  unbroken := h.unbroken
  ends := h.ends

end BeginsWith

theorem tokens_eq_nil_iff : tokens cs = [] ↔ IsBlankText cs := by
  constructor
  · intro htokens
    rcases isBlankText_or_exists_beginsWith cs with hblank | ⟨blanks, token, rest, h⟩
    · exact hblank
    · rw [h.tokens_eq] at htokens
      contradiction
  · exact tokens_of_isBlankText

/-- A text with a token begins with it. -/
theorem exists_beginsWith_of_tokens {more : List (List Char)} (h : tokens cs = token :: more) :
    ∃ blanks rest, BeginsWith cs blanks token rest ∧ tokens rest = more := by
  rcases isBlankText_or_exists_beginsWith cs with hblank | ⟨blanks, token', rest, hbegins⟩
  · rw [tokens_of_isBlankText hblank] at h
    contradiction
  · rw [hbegins.tokens_eq] at h
    obtain ⟨rfl, rfl⟩ := List.cons.inj h
    exact ⟨blanks, rest, hbegins, rfl⟩

end ToolchainChoice.Text
