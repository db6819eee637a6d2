import ToolchainChoice.Proofs.Workspace.Lines

/-!
# Directives and lines

A directive that is written on one line is read as it stands there, wherever the line is. The first line
that begins with the word is the one that counts if it has a version, and nothing behind the version but
a comment. A directive is not always one line, however: where the word stands alone on its line, the next
line that is not blank is read as if it stood behind the word. This is the only way in which lines are
put together.
-/
namespace ToolchainChoice.Workspace

open Text (lines tokens)

variable {content l v : List Char} {more ls : List (List Char)}

theorem directive?_eq_firstDeclared? (content : List Char) :
    directive? content = (firstDeclared? (lines content)).map String.ofList := by
  rw [directive?, searchDirective_eq_firstDeclared?]

theorem directive?_line (hline : '\n' ∉ l) :
    directive? l = (declared? (tokens l)).map String.ofList := by
  rw [directive?, searchDirective_line hline, directiveAt?_line hline]

/-! ## Lines that begin with the word -/

theorem isComment_iff_prefix {token : List Char} :
    isComment token = true ↔ ['/', '/'] <+: token := by
  constructor
  · intro h
    unfold isComment at h
    split at h
    · rename_i rest
      exact ⟨rest, rfl⟩
    · contradiction
  · intro h
    obtain ⟨rest, rfl⟩ := h
    rfl

/-- The line begins with the word. -/
def BeginsWithKeyword (l : List Char) : Prop := (tokens l).head? = some keyword

instance : DecidablePred BeginsWithKeyword := fun l =>
  inferInstanceAs (Decidable ((tokens l).head? = some keyword))

theorem declared?_of_head_ne {ts : List (List Char)} (h : ts.head? ≠ some keyword) :
    declared? ts = none := by
  unfold declared?
  split
  · rename_i word version more
    have hword : word ≠ keyword := fun hword => h (hword ▸ rfl)
    rw [if_neg hword]
  · rfl

theorem declaredOn?_of_not_beginsWithKeyword (h : ¬BeginsWithKeyword l)
    (more : List (List Char)) : declaredOn? l more = none := by
  have hbare : tokens l ≠ [keyword] := by
    intro hbare
    apply h
    rw [BeginsWithKeyword, hbare]
    rfl
  rw [declaredOn?, if_neg hbare, declared?_of_head_ne h]

theorem firstDeclared?_eq_none (h : ∀ l ∈ ls, ¬BeginsWithKeyword l) : firstDeclared? ls = none := by
  induction ls with
  | nil => rfl
  | cons l ls ih =>
    obtain ⟨hl, hls⟩ := List.forall_mem_cons.mp h
    rw [firstDeclared?, declaredOn?_of_not_beginsWithKeyword hl, ih hls]
    rfl

theorem declaredOn?_of_tokens {ts : List (List Char)} (h : tokens l = keyword :: v :: ts)
    (hcomment : ∀ t ∈ ts.head?, ['/', '/'] <+: t) (more : List (List Char)) :
    declaredOn? l more = some v := by
  have hbare : tokens l ≠ [keyword] := by simp [h]
  have hends : ts.head?.all isComment = true := by
    rw [Option.all_eq_true]
    intro t ht
    exact isComment_iff_prefix.mpr (hcomment t ht)
  rw [declaredOn?, if_neg hbare, h, declared?, if_pos rfl, if_pos hends]

theorem firstDeclared?_of_find? {ts : List (List Char)}
    (hfind : ls.find? (fun m => BeginsWithKeyword m) = some l) (h : tokens l = keyword :: v :: ts)
    (hcomment : ∀ t ∈ ts.head?, ['/', '/'] <+: t) : firstDeclared? ls = some v := by
  induction ls with
  | nil => contradiction
  | cons m ls ih =>
    rw [firstDeclared?]
    by_cases hm : BeginsWithKeyword m
    · rw [List.find?_cons_of_pos (by simp [hm])] at hfind
      obtain rfl := Option.some.inj hfind
      rw [declaredOn?_of_tokens h hcomment]
      rfl
    · rw [List.find?_cons_of_neg (by simp [hm])] at hfind
      rw [declaredOn?_of_not_beginsWithKeyword hm, ih hfind]
      rfl

/-- **Directives on one line.** Without a line that begins with the word there is no directive. If the
first such line has a second token, and no third one or one that begins a comment, then the second token
is the version, whatever stands on the lines before and behind. -/
theorem directive_on_first_keyword_line (content : List Char) :
    ((∀ l ∈ lines content, ¬BeginsWithKeyword l) → directive? content = none) ∧
      ∀ l v ts, (lines content).find? (fun m => BeginsWithKeyword m) = some l →
        tokens l = keyword :: v :: ts → (∀ t ∈ ts.head?, ['/', '/'] <+: t) →
        directive? content = some (String.ofList v) := by
  rw [directive?_eq_firstDeclared?]
  refine ⟨?_, ?_⟩
  · intro h
    rw [firstDeclared?_eq_none h]
    rfl
  · intro l v ts hfind h hcomment
    rw [firstDeclared?_of_find? hfind h hcomment]
    rfl

/-- The third line is the first that begins with the word. Its version has a comment behind it, and the
line after it is not looked at. -/
theorem directive_on_third_line :
    (∀ l ∈ lines "toolchain go1.22.0\ngodebug x=y".toList, ¬BeginsWithKeyword l) ∧
      directive? "toolchain go1.22.0\ngodebug x=y".toList = none ∧
      (lines "module m\n\n\tgo  1.18 // least\ngo 1.21".toList).find?
        (fun m => BeginsWithKeyword m) = some "\tgo  1.18 // least".toList ∧
      directive? "module m\n\n\tgo  1.18 // least\ngo 1.21".toList = some "1.18" := by
  have hnone : ∀ l ∈ lines "toolchain go1.22.0\ngodebug x=y".toList, ¬BeginsWithKeyword l := by
    decide
  have hfind : (lines "module m\n\n\tgo  1.18 // least\ngo 1.21".toList).find?
      (fun m => BeginsWithKeyword m) = some "\tgo  1.18 // least".toList := by decide
  have htokens : tokens "\tgo  1.18 // least".toList =
      [keyword, "1.18".toList, "//".toList, "least".toList] := by decide
  have hcomment : ∀ t ∈ ["//".toList, "least".toList].head?, ['/', '/'] <+: t := by
    intro t ht
    obtain rfl := Option.some.inj ht
    exact List.prefix_rfl
  exact ⟨hnone, (directive_on_first_keyword_line _).1 hnone, hfind,
    (directive_on_first_keyword_line _).2 _ _ _ hfind htokens hcomment⟩

/-! ## Line by line -/

/-- The line, or the line and the next one that is not blank if the word stands alone on it. -/
def completed (l : List Char) (more : List (List Char)) : List Char :=
  if tokens l = [keyword] then l ++ ' ' :: nextLine more else l

/-- The first directive that one of the lines has, each completed where the word stands alone. -/
def directiveByLine : List (List Char) → Option String
  | [] => none
  | l :: more => (directive? (completed l more)).or (directiveByLine more)

theorem lineFeed_notMem_nextLine (h : ∀ m ∈ more, '\n' ∉ m) : '\n' ∉ nextLine more := by
  unfold nextLine
  cases hfind : more.find? fun m => !(tokens m).isEmpty with
  | none => exact List.not_mem_nil
  | some m => exact h m (List.mem_of_find?_eq_some hfind)

theorem directive?_completed (hline : '\n' ∉ l) (hmore : ∀ m ∈ more, '\n' ∉ m) :
    directive? (completed l more) = (declaredOn? l more).map String.ofList := by
  unfold completed declaredOn?
  by_cases hbare : tokens l = [keyword]
  · have hjoined : '\n' ∉ l ++ ' ' :: nextLine more := by
      simp [hline, lineFeed_notMem_nextLine hmore]
    rw [if_pos hbare, if_pos hbare, directive?_line hjoined, Text.tokens_append_cons rfl, hbare]
    rfl
  · rw [if_neg hbare, if_neg hbare, directive?_line hline]

theorem directiveByLine_eq (h : ∀ m ∈ ls, '\n' ∉ m) :
    directiveByLine ls = (firstDeclared? ls).map String.ofList := by
  induction ls with
  | nil => rfl
  | cons l more ih =>
    obtain ⟨hline, hmore⟩ := List.forall_mem_cons.mp h
    rw [directiveByLine, firstDeclared?, directive?_completed hline hmore, ih hmore, Option.map_or]

/-- Where the word never stands alone, each line has its own directive or none. -/
theorem directiveByLine_eq_findSome? (h : ∀ m ∈ ls, tokens m ≠ [keyword]) :
    directiveByLine ls = ls.findSome? directive? := by
  induction ls with
  | nil => rfl
  | cons l more ih =>
    obtain ⟨hl, hmore⟩ := List.forall_mem_cons.mp h
    rw [directiveByLine, completed, if_neg hl, ih hmore, List.findSome?_cons]
    cases directive? l <;> rfl

/-- **Line by line.** The directive of a text is the first that one of its lines has, where a line on
which the word stands alone is completed by the next line that is not blank. In a text without such a
line a directive is a single line. -/
theorem directive_line_by_line (content : List Char) :
    directive? content = directiveByLine (lines content) ∧
      ((∀ l ∈ lines content, tokens l ≠ [keyword]) →
        directive? content = (lines content).findSome? directive?) := by
  have hfeed : ∀ l ∈ lines content, '\n' ∉ l := fun l hl => Text.lineFeed_notMem_of_mem_lines hl
  have hbyLine : directive? content = directiveByLine (lines content) := by
    rw [directive?_eq_firstDeclared?, directiveByLine_eq hfeed]
  refine ⟨hbyLine, ?_⟩
  intro hbare
  rw [hbyLine, directiveByLine_eq_findSome? hbare]

/-- The second line has a third token that is no comment, so the fourth line counts. -/
theorem directive_of_fourth_line :
    (∀ l ∈ lines "module m\ngo 1.21 next\n\ngo 1.20".toList, tokens l ≠ [keyword]) ∧
      directive? "module m\ngo 1.21 next\n\ngo 1.20".toList =
        (lines "module m\ngo 1.21 next\n\ngo 1.20".toList).findSome? directive? ∧
      directive? "go 1.21 next".toList = none ∧ directive? "go 1.20".toList = some "1.20" := by
  have hbare : ∀ l ∈ lines "module m\ngo 1.21 next\n\ngo 1.20".toList, tokens l ≠ [keyword] := by
    decide
  exact ⟨hbare, (directive_line_by_line _).2 hbare, by decide, by decide⟩

/-- The word and the version are on two lines, neither of which has a directive. -/
theorem directive_over_line_feed :
    directive? "go\n1.21\n".toList = some "1.21" ∧
      (lines "go\n1.21\n".toList).findSome? directive? = none := by
  decide

end ToolchainChoice.Workspace
