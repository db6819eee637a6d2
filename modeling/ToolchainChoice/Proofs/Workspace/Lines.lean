import ToolchainChoice.Proofs.Text.Tokens
import ToolchainChoice.Workspace.Directive

/-!
# The directive of a text, line by line

The search for a directive begins anew at each line, but what it finds there may reach over line feeds:
blank lines before the word, and everything up to the version if the word stands alone on its line.
Nothing else does. After the version the rest of its line decides. So what a line declares depends on
its tokens, and on the next line with tokens if the word is its only one.
-/
namespace ToolchainChoice.Workspace

open Text (isBlank lines tokens IsBlankText BeginsWith)

/-- The word that a directive begins with. -/
def keyword : List Char := ['g', 'o']

/-- What a line with these tokens declares. -/
def declared? : List (List Char) → Option (List Char)
  | word :: version :: more =>
    if word = keyword then
      if more.head?.all isComment then some version else beforeComment? version
    else none
  | _ => none

variable {cs l blanks token rest after : List Char}

/-! ## After the version -/

/-- A text that ends a line: nothing, or something behind a line feed. -/
def EndsLine (cs : List Char) : Prop := ∀ c ∈ cs.head?, c = '\n'

theorem EndsLine.isBlank (h : EndsLine cs) : ∀ c ∈ cs.head?, isBlank c = true := by
  intro c hc
  rw [h c hc]
  rfl

theorem endsLine_nil : EndsLine [] := by
  intro c hc
  contradiction

theorem endsLine_flatMap (more : List (List Char)) : EndsLine (more.flatMap ('\n' :: ·)) := by
  cases more with
  | nil => exact endsLine_nil
  | cons line more =>
    intro c hc
    exact (Option.some.inj hc).symm

/-- Whether a token is a comment shows in its first two characters. -/
theorem isComment_append (h : BeginsWith cs blanks token rest) :
    isComment (token ++ rest) = isComment token := by
  obtain ⟨c, more, rfl, -⟩ := h.exists_token_eq
  cases more with
  | cons d more =>
    unfold isComment
    split <;> split <;> simp_all
  | nil =>
    have hslash : rest.head? ≠ some '/' := by
      intro hhead
      have hblank := h.ends '/' hhead
      contradiction
    unfold isComment
    split
    · rename_i tail htail
      have hrest : rest = '/' :: tail := (List.cons.inj htail).2
      rw [hrest] at hslash
      exact absurd rfl hslash
    · split
      · rename_i tail htail
        have htail' := (List.cons.inj htail).2
        contradiction
      · rfl

/-- A directive ends with the version, or before the comment that is the next token of its line. -/
theorem endsDirective_append (hline : '\n' ∉ rest) (hafter : EndsLine after) :
    endsDirective (rest ++ after) = (tokens rest).head?.all isComment := by
  rcases Text.isBlankText_or_exists_beginsWith rest with hblank | ⟨blanks, token, tail, h⟩
  · rw [Text.tokens_of_isBlankText hblank, endsDirective, List.takeWhile_append_of_pos hblank,
      List.dropWhile_append_of_pos hblank]
    cases after with
    | nil => simp
    | cons c after =>
      obtain rfl := hafter c rfl
      have hfeed : (rest ++ List.takeWhile isBlank ('\n' :: after)).contains '\n' = true := by
        rw [List.takeWhile_cons_of_pos (by rfl)]
        simp
      rw [hfeed]
      rfl
  · have h' := h.append hafter.isBlank
    have hfeed : blanks.contains '\n' = false := by
      rw [List.contains_eq_mem, decide_eq_false_iff_not]
      intro hmem
      apply hline
      rw [h.text]
      exact List.mem_append_left _ hmem
    have hfull : (token ++ (tail ++ after)).isEmpty = false := by
      simp [h.ne_nil]
    rw [h.tokens_eq, endsDirective, h'.takeWhile_eq, h'.dropWhile_eq]
    rw [hfeed, hfull, isComment_append h']
    rfl

/-! ## After the word -/

/-- Between the word and the version any blanks will do, line feeds among them. -/
theorem directiveTail?_append (h : BeginsWith cs blanks token rest) (hblanks : blanks ≠ [])
    (hline : '\n' ∉ rest) (hafter : EndsLine after) :
    directiveTail? (cs ++ after) =
      if (tokens rest).head?.all isComment then some token else beforeComment? token := by
  have h' := h.append hafter.isBlank
  have hspace : (blanks.isEmpty || token.isEmpty) = false := by
    simp [hblanks, h.ne_nil]
  rw [directiveTail?, h'.takeWhile_eq, h'.dropWhile_eq]
  rw [h'.takeWhile_token, h'.dropWhile_token, hspace, endsDirective_append hline hafter]
  rfl

/-- Without a blank after the word there is no directive. -/
theorem directiveTail?_of_unbroken {c : Char} (hc : isBlank c = false) (cs : List Char) :
    directiveTail? (c :: cs) = none := by
  rw [directiveTail?, List.takeWhile_cons_of_neg (by simp [hc])]
  rfl

theorem directiveTail?_of_isBlankText (h : IsBlankText cs) : directiveTail? cs = none := by
  have hall : cs.dropWhile isBlank = [] := by
    rw [← List.append_nil cs, List.dropWhile_append_of_pos h]
    rfl
  rw [directiveTail?, hall]
  simp

/-- How many blanks there are makes no difference, as long as there is one. -/
theorem directiveTail?_blanks (h : IsBlankText blanks) (hne : blanks ≠ []) (cs : List Char) :
    directiveTail? (blanks ++ cs) = directiveTail? ('\n' :: cs) := by
  have hfeed : IsBlankText ['\n'] := List.forall_mem_singleton.mpr rfl
  have hspace : (blanks ++ cs.takeWhile isBlank).isEmpty = false := by
    simp [hne]
  have hspace' : (['\n'] ++ cs.takeWhile isBlank).isEmpty = false := rfl
  show directiveTail? (blanks ++ cs) = directiveTail? (['\n'] ++ cs)
  rw [directiveTail?, directiveTail?, List.takeWhile_append_of_pos h,
    List.dropWhile_append_of_pos h, List.takeWhile_append_of_pos hfeed,
    List.dropWhile_append_of_pos hfeed, hspace, hspace']

/-- Blanks before the end of a line make no difference at all. -/
theorem directiveTail?_append_of_isBlankText (h : IsBlankText blanks) (hafter : EndsLine after) :
    directiveTail? (blanks ++ after) = directiveTail? after := by
  cases after with
  | nil =>
    rw [List.append_nil, directiveTail?_of_isBlankText h]
    rfl
  | cons c after =>
    obtain rfl := hafter c rfl
    have hblank : IsBlankText (blanks ++ ['\n']) :=
      List.forall_mem_append.mpr ⟨h, List.forall_mem_singleton.mpr rfl⟩
    have hcut : blanks ++ '\n' :: after = (blanks ++ ['\n']) ++ after := by simp
    rw [hcut, directiveTail?_blanks hblank (by simp)]

/-! ## Before the word -/

theorem directiveAt?_blanks (h : IsBlankText blanks) (cs : List Char) :
    directiveAt? (blanks ++ cs) = directiveAt? cs := by
  rw [directiveAt?, directiveAt?, List.dropWhile_append_of_pos h]

/-- Only the whole first token can be the word. -/
theorem directiveAt?_of_beginsWith (h : BeginsWith cs blanks token rest) :
    directiveAt? cs = if token = keyword then directiveTail? rest else none := by
  rw [directiveAt?, h.dropWhile_eq]
  split
  · rename_i tail htail
    by_cases hword : token = keyword
    · rw [hword] at htail
      obtain rfl : rest = tail := (List.cons.inj (List.cons.inj htail).2).2
      rw [if_pos hword]
    · rw [if_neg hword]
      -- the token is longer than the word, or it is the letter g alone and something follows it
      match token, h, hword, htail with
      | [], h, _, _ => exact absurd rfl h.ne_nil
      | [c], h, _, htail =>
        have hrest : rest = 'o' :: tail := (List.cons.inj htail).2
        have hblank := h.ends 'o' (by rw [hrest]; rfl)
        contradiction
      | [c, d], _, hword, htail =>
        obtain ⟨rfl, hd⟩ := List.cons.inj htail
        obtain ⟨rfl, -⟩ := List.cons.inj hd
        exact absurd rfl hword
      | c :: d :: e :: more, h, _, htail =>
        have htail' : tail = e :: (more ++ rest) := by
          have htwo := (List.cons.inj (List.cons.inj htail).2).2
          exact htwo.symm
        have he : isBlank e = false := h.unbroken e (by simp)
        rw [htail', directiveTail?_of_unbroken he]
  · rename_i hnone
    by_cases hword : token = keyword
    · rw [hword] at hnone
      exact absurd rfl (hnone rest)
    · rw [if_neg hword]

/-! ## A line and what follows it -/

/-- The word alone on a line takes its version from what follows the line. -/
theorem directiveAt?_bare (htokens : tokens l = [keyword]) (hafter : EndsLine after) :
    directiveAt? (l ++ after) = directiveTail? after := by
  obtain ⟨blanks, rest, h, hrest⟩ := Text.exists_beginsWith_of_tokens htokens
  rw [directiveAt?_of_beginsWith (h.append hafter.isBlank), if_pos rfl,
    directiveTail?_append_of_isBlankText (Text.tokens_eq_nil_iff.mp hrest) hafter]

/-- On any other line with tokens the tokens decide, whatever follows the line. -/
theorem directiveAt?_append (hline : '\n' ∉ l) (hafter : EndsLine after) (hne : tokens l ≠ [])
    (hbare : tokens l ≠ [keyword]) : directiveAt? (l ++ after) = declared? (tokens l) := by
  obtain ⟨word, more, htokens⟩ := List.exists_cons_of_ne_nil hne
  obtain ⟨blanks, rest, h, hrest⟩ := Text.exists_beginsWith_of_tokens htokens
  rw [directiveAt?_of_beginsWith (h.append hafter.isBlank), htokens]
  cases more with
  | nil =>
    have hword : word ≠ keyword := by
      intro hword
      rw [htokens, hword] at hbare
      exact hbare rfl
    rw [if_neg hword]
    rfl
  | cons version more =>
    obtain ⟨blanks', rest', h', hrest'⟩ := Text.exists_beginsWith_of_tokens hrest
    have hblanks' : blanks' ≠ [] := by
      intro hnil
      obtain ⟨c, tail, hversion, hc⟩ := h'.exists_token_eq
      have hhead : rest.head? = some c := by
        rw [h'.text, hnil, hversion]
        rfl
      have hblank := h.ends c hhead
      rw [hc] at hblank
      contradiction
    have hline' : '\n' ∉ rest' := by
      intro hmem
      apply hline
      rw [h.text, h'.text]
      simp [hmem]
    rw [directiveTail?_append h' hblanks' hline' hafter, hrest']
    rfl

/-- A line that stands alone declares what its tokens say. -/
theorem directiveAt?_line (hline : '\n' ∉ l) : directiveAt? l = declared? (tokens l) := by
  rw [← List.append_nil l]
  by_cases hnil : tokens l = []
  · rw [directiveAt?_blanks (Text.tokens_eq_nil_iff.mp hnil), List.append_nil, hnil]
    rfl
  · by_cases hbare : tokens l = [keyword]
    · rw [directiveAt?_bare hbare endsLine_nil, List.append_nil, hbare]
      rfl
    · rw [directiveAt?_append hline endsLine_nil hnil hbare, List.append_nil]

/-- The next line that is not blank, or else an empty one. -/
def nextLine (ls : List (List Char)) : List Char := (ls.find? fun l => !(tokens l).isEmpty).getD []

theorem nextLine_cons_of_blank (h : tokens l = []) (ls : List (List Char)) :
    nextLine (l :: ls) = nextLine ls := by
  simp [nextLine, h]

theorem nextLine_cons (h : tokens l ≠ []) (ls : List (List Char)) : nextLine (l :: ls) = l := by
  simp [nextLine, h]

/-- What follows a line with the word alone gives the version as if the next line that is not blank
stood behind the word. -/
theorem directiveTail?_flatMap {ls : List (List Char)} (hlines : ∀ l ∈ ls, '\n' ∉ l) :
    directiveTail? (ls.flatMap ('\n' :: ·)) = declared? (keyword :: tokens (nextLine ls)) := by
  induction ls with
  | nil => rfl
  | cons l ls ih =>
    have hafter := endsLine_flatMap ls
    have hfeed : IsBlankText ['\n'] := List.forall_mem_singleton.mpr rfl
    have htext : (l :: ls).flatMap ('\n' :: ·) = ('\n' :: l) ++ ls.flatMap ('\n' :: ·) := rfl
    rw [htext]
    rcases Text.isBlankText_or_exists_beginsWith l with hblank | ⟨blanks, token, rest, h⟩
    · have hblank' : IsBlankText ('\n' :: l) := List.forall_mem_append.mpr ⟨hfeed, hblank⟩
      rw [directiveTail?_append_of_isBlankText hblank' hafter,
        nextLine_cons_of_blank (Text.tokens_of_isBlankText hblank)]
      exact ih fun m hm => hlines m (List.mem_cons_of_mem l hm)
    · have hne : tokens l ≠ [] := by simp [h.tokens_eq]
      have hline : '\n' ∉ rest := by
        intro hmem
        apply hlines l List.mem_cons_self
        rw [h.text]
        simp [hmem]
      rw [nextLine_cons hne, h.tokens_eq]
      exact directiveTail?_append (h.append_left hfeed) (by simp) hline hafter

/-! ## All lines -/

/-- What a line declares on which more lines follow. -/
def declaredOn? (l : List Char) (more : List (List Char)) : Option (List Char) :=
  if tokens l = [keyword] then declared? (keyword :: tokens (nextLine more)) else declared? (tokens l)

/-- What the first line declares that declares anything. -/
def firstDeclared? : List (List Char) → Option (List Char)
  | [] => none
  | l :: more => (declaredOn? l more).or (firstDeclared? more)

theorem searchDirective_false_cons (c : Char) (cs : List Char) :
    searchDirective false (c :: cs) = searchDirective (c == '\n') cs := by
  rw [searchDirective]
  rfl

/-- At the beginning of a line a search looks at what stands there, and otherwise goes on as it does
within a line. -/
theorem searchDirective_true (cs : List Char) :
    searchDirective true cs = (directiveAt? cs).or (searchDirective false cs) := by
  rw [searchDirective.eq_def]
  cases directiveAt? cs with
  | some v => rfl
  | none =>
    cases cs with
    | nil => rfl
    | cons c cs =>
      rw [searchDirective_false_cons]
      rfl

/-- What is found at the beginning of a text is found by a search of it. -/
theorem directiveAt?_or_searchDirective (cs : List Char) :
    (directiveAt? cs).or (searchDirective true cs) = searchDirective true cs := by
  rw [searchDirective_true, ← Option.or_assoc, Option.or_self]

/-- Within a line nothing is looked at. -/
theorem searchDirective_false_append (hline : '\n' ∉ l) (after : List Char) :
    searchDirective false (l ++ after) = searchDirective false after := by
  induction l with
  | nil => rfl
  | cons c l ih =>
    have hc : (c == '\n') = false := by
      rw [beq_eq_false_iff_ne]
      intro hfeed
      exact hline (hfeed ▸ List.mem_cons_self)
    rw [List.cons_append, searchDirective_false_cons, hc]
    exact ih fun hmem => hline (List.mem_cons_of_mem c hmem)

/-- A search is a look at the first line and a search behind it. -/
theorem searchDirective_line_append (hline : '\n' ∉ l) (cs : List Char) :
    searchDirective true (l ++ '\n' :: cs) =
      (directiveAt? (l ++ '\n' :: cs)).or (searchDirective true cs) := by
  rw [searchDirective_true, searchDirective_false_append hline, searchDirective_false_cons]
  rfl

theorem searchDirective_line (hline : '\n' ∉ l) : searchDirective true l = directiveAt? l := by
  have hrest := searchDirective_false_append hline []
  rw [List.append_nil] at hrest
  rw [searchDirective_true, hrest]
  exact Option.or_none

/-- The search goes line by line. -/
theorem searchDirective_lines {ls : List (List Char)} (hline : '\n' ∉ l)
    (hlines : ∀ m ∈ ls, '\n' ∉ m) :
    searchDirective true (l ++ ls.flatMap ('\n' :: ·)) = firstDeclared? (l :: ls) := by
  induction ls generalizing l with
  | nil =>
    have hend : tokens (nextLine []) = [] := rfl
    rw [List.flatMap_nil, List.append_nil, searchDirective_line hline, directiveAt?_line hline,
      firstDeclared?, firstDeclared?, Option.or_none, declaredOn?, hend]
    by_cases hbare : tokens l = [keyword]
    · rw [if_pos hbare, hbare]
    · rw [if_neg hbare]
  | cons m ls ih =>
    obtain ⟨hm, hls⟩ := List.forall_mem_cons.mp hlines
    have hafter := endsLine_flatMap (m :: ls)
    have htext : (m :: ls).flatMap ('\n' :: ·) = '\n' :: (m ++ ls.flatMap ('\n' :: ·)) := rfl
    rw [firstDeclared?, ← ih hm hls, declaredOn?]
    by_cases hnil : tokens l = []
    · -- nothing is declared here, and a search from a blank line finds what stands behind it
      have hblank : IsBlankText (l ++ ['\n']) :=
        List.forall_mem_append.mpr
          ⟨Text.tokens_eq_nil_iff.mp hnil, List.forall_mem_singleton.mpr rfl⟩
      have hcut : l ++ '\n' :: (m ++ ls.flatMap ('\n' :: ·)) =
          (l ++ ['\n']) ++ (m ++ ls.flatMap ('\n' :: ·)) := by simp
      rw [htext, searchDirective_line_append hline, hcut, directiveAt?_blanks hblank,
        directiveAt?_or_searchDirective, hnil]
      rfl
    · by_cases hbare : tokens l = [keyword]
      · rw [if_pos hbare, ← directiveTail?_flatMap hlines, ← directiveAt?_bare hbare hafter, htext]
        exact searchDirective_line_append hline _
      · rw [if_neg hbare, ← directiveAt?_append hline hafter hnil hbare, htext]
        exact searchDirective_line_append hline _

theorem searchDirective_eq_firstDeclared? (cs : List Char) :
    searchDirective true cs = firstDeclared? (lines cs) := by
  obtain ⟨first, more, hlines, htext⟩ := Text.exists_lines_eq cs
  have hfeed : ∀ l ∈ lines cs, '\n' ∉ l := fun l hl => Text.lineFeed_notMem_of_mem_lines hl
  rw [hlines] at hfeed ⊢
  obtain ⟨hfirst, hmore⟩ := List.forall_mem_cons.mp hfeed
  rw [htext]
  exact searchDirective_lines hfirst hmore

end ToolchainChoice.Workspace
