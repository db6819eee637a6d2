import ToolchainChoice.Proofs.Workspace.Directive

/-!
# A comment behind the version

Blanks between the version and a comment keep the two apart, whatever the comment holds. A comment that
follows the version at once is first taken for a part of it, up to the next blank. It is given back, in
part, only if what follows that blank cannot stand behind a version: then the version ends at the last
comment mark before the blank, which need not be the first one.
-/
namespace ToolchainChoice.Workspace

open Text (isBlank tokens IsBlankText BeginsWith)

variable {cs before after version blanks comment swallowed : List Char} {c : Char}

/-- What a comment begins with. -/
def commentMark : List Char := ['/', '/']

theorem isInfix_of_isComment (h : isComment cs = true) : commentMark <:+: cs := by
  have hstart := isComment_iff_prefix.mp h
  exact hstart.isInfix

theorem isComment_append_mark (cs : List Char) : isComment (commentMark ++ cs) = true :=
  isComment_iff_prefix.mpr (List.prefix_append commentMark cs)

/-! ## The last comment mark -/

theorem beforeComment?_cons (c : Char) (cs : List Char) :
    beforeComment? (c :: cs) =
      ((beforeComment? cs).map (c :: ·)).or (if isComment cs then some [c] else none) := by
  rw [beforeComment?]
  cases beforeComment? cs <;> rfl

/-- A mark at the very beginning does not count. -/
theorem beforeComment?_eq_none (h : ¬ commentMark <:+: cs) (c : Char) :
    beforeComment? (c :: cs) = none := by
  have hstart : isComment cs = false :=
    Bool.eq_false_iff.mpr fun hcomment => h (isInfix_of_isComment hcomment)
  induction cs generalizing c with
  | nil => rfl
  | cons d ds ih =>
    have hds : ¬ commentMark <:+: ds := fun hmark => h (List.infix_cons hmark)
    have hrest : isComment ds = false :=
      Bool.eq_false_iff.mpr fun hcomment => hds (isInfix_of_isComment hcomment)
    rw [beforeComment?_cons, ih hds d hrest, hstart]
    rfl

/-- What stands before the last mark, if it is not the first thing in the text. -/
theorem beforeComment?_split (hne : before ≠ []) (hlast : ¬ commentMark <:+: '/' :: after) :
    beforeComment? (before ++ (commentMark ++ after)) = some before := by
  induction before with
  | nil => contradiction
  | cons c before ih =>
    rw [List.cons_append, beforeComment?_cons]
    cases before with
    | nil =>
      rw [List.nil_append, isComment_append_mark]
      have hnone : beforeComment? (commentMark ++ after) = none := beforeComment?_eq_none hlast '/'
      rw [hnone]
      rfl
    | cons d before =>
      rw [ih (List.cons_ne_nil d before)]
      rfl

/-- A text with a mark has a last one. -/
theorem exists_last_mark (h : commentMark <:+: cs) :
    ∃ before after, cs = before ++ (commentMark ++ after) ∧ ¬ commentMark <:+: '/' :: after := by
  induction cs with
  | nil => exact absurd (List.infix_nil.mp h) (by decide)
  | cons c cs ih =>
    by_cases hcs : commentMark <:+: cs
    · obtain ⟨before, after, rfl, hlast⟩ := ih hcs
      exact ⟨c :: before, after, rfl, hlast⟩
    · rcases List.infix_cons_iff.mp h with ⟨after, hafter⟩ | hinfix
      · refine ⟨[], after, hafter.symm, ?_⟩
        obtain rfl : '/' :: after = cs := (List.cons.inj hafter).2
        exact hcs
      · exact absurd hinfix hcs

/-- Without another slash there is no later mark. -/
theorem not_mark_of_notMem (h : '/' ∉ cs) : ¬ commentMark <:+: '/' :: cs := by
  intro hmark
  have hslash : ['/'] ⊆ cs := by
    rcases List.infix_cons_iff.mp hmark with ⟨after, hafter⟩ | hinfix
    · obtain rfl : '/' :: after = cs := (List.cons.inj hafter).2
      exact (List.prefix_append ['/'] after).subset
    · exact List.Subset.trans (by decide) hinfix.subset
  exact h (hslash List.mem_cons_self)

/-! ## The words of a comment -/

/-- What of a comment stands before its first blank. -/
def firstWord (comment : List Char) : List Char := comment.takeWhile fun c => !isBlank c

def afterFirstWord (comment : List Char) : List Char := comment.dropWhile fun c => !isBlank c

/-- Behind its first blank the comment holds something that cannot stand behind a version: a token that
begins no comment of its own. -/
def GoesOn (comment : List Char) : Prop :=
  ∃ token ∈ (tokens (afterFirstWord comment)).head?, ¬ commentMark <+: token

theorem goesOn_iff : GoesOn comment ↔ (tokens (afterFirstWord comment)).head?.all isComment = false := by
  unfold GoesOn
  cases (tokens (afterFirstWord comment)).head? with
  | none => simp
  | some token =>
    rw [Option.all_some, Bool.eq_false_iff, Ne, isComment_iff_prefix]
    simp [commentMark]

/-- A comment continues the token that it is attached to. -/
theorem beginsWith_append_comment (start comment : List Char) (hne : start ≠ [])
    (h : ∀ c ∈ start, isBlank c = false) :
    BeginsWith (start ++ comment) [] (start ++ firstWord comment) (afterFirstWord comment) where
  text := by
    rw [List.nil_append, List.append_assoc, firstWord, afterFirstWord,
      List.takeWhile_append_dropWhile]
  blank := List.forall_mem_nil _
  ne_nil := by simp [hne]
  unbroken := List.forall_mem_append.mpr ⟨h, Text.unbroken_of_all List.all_takeWhile⟩
  ends := by
    intro c hc
    have hnot := List.head?_dropWhile_not (fun c => !isBlank c) comment
    rw [afterFirstWord] at hc
    rw [hc] at hnot
    simpa using hnot

/-- What of a comment is taken for a part of the version that it follows: of the blanks between them, the
comment and what is swallowed. -/
inductive Swallowed : List Char → List Char → List Char → Prop
  | nothing {blanks comment : List Char} (h : blanks ≠ []) : Swallowed blanks comment []
  /-- All up to the first blank, if a directive can end there. -/
  | firstWord {comment : List Char} (h : ¬ GoesOn comment) :
      Swallowed [] comment (commentMark ++ firstWord comment)
  /-- All up to the last mark before the first blank, if it cannot. -/
  | upToMark {comment before after : List Char} (h : GoesOn comment)
      (hword : commentMark ++ firstWord comment = before ++ (commentMark ++ after))
      (hlast : ¬ commentMark <:+: '/' :: after) : Swallowed [] comment before

theorem exists_swallowed (blanks comment : List Char) : ∃ swallowed, Swallowed blanks comment swallowed := by
  by_cases hblanks : blanks = []
  · subst hblanks
    by_cases h : GoesOn comment
    · obtain ⟨before, after, hword, hlast⟩ :=
        exists_last_mark (List.prefix_append commentMark (firstWord comment)).isInfix
      exact ⟨before, .upToMark h hword hlast⟩
    · exact ⟨_, .firstWord h⟩
  · exact ⟨[], .nothing hblanks⟩

/-- Nothing is swallowed if blanks are in between, or if the comment goes on and its first word makes no
mark that is later than the one it begins with. -/
theorem Swallowed.eq_nil_iff (h : Swallowed blanks comment swallowed) :
    swallowed = [] ↔
      blanks ≠ [] ∨ GoesOn comment ∧ ¬ commentMark <:+: '/' :: Workspace.firstWord comment := by
  cases h with
  | nothing h => simp [h]
  | firstWord h => simp [h, commentMark]
  | @upToMark _ _ after h hword hlast =>
    constructor
    · rintro rfl
      have hafter : Workspace.firstWord comment = after := List.append_cancel_left hword
      exact .inr ⟨h, hafter ▸ hlast⟩
    · rintro (hblanks | ⟨-, hmark⟩)
      · contradiction
      · cases swallowed with
        | nil => rfl
        | cons c more =>
          have htail : '/' :: Workspace.firstWord comment = more ++ (commentMark ++ after) :=
            (List.cons.inj hword).2
          rw [htail] at hmark
          exact absurd (List.infix_append' more commentMark after) hmark

/-! ## The directive -/

theorem tokens_keyword_append (cs : List Char) :
    tokens ("go ".toList ++ cs) = keyword :: tokens cs := by
  have hkeyword : ∀ c ∈ keyword, isBlank c = false := Text.unbroken_of_all (by decide)
  have htext : "go ".toList ++ cs = keyword ++ ' ' :: cs := rfl
  rw [htext, Text.tokens_append_cons rfl, Text.tokens_of_unbroken (by decide) hkeyword]
  rfl

theorem declared?_of_swallowed (hne : version ≠ []) (hunbroken : ∀ c ∈ version, isBlank c = false)
    (hblank : IsBlankText blanks) (h : Swallowed blanks comment swallowed) :
    declared? (tokens ("go ".toList ++ (version ++ (blanks ++ (commentMark ++ comment))))) =
      some (version ++ swallowed) := by
  have hmark : ∀ c ∈ commentMark, isBlank c = false := Text.unbroken_of_all (by decide)
  rw [tokens_keyword_append]
  cases h with
  | nothing hblanks =>
    have hversion : BeginsWith (version ++ (blanks ++ (commentMark ++ comment))) [] version
        (blanks ++ (commentMark ++ comment)) := by
      refine ⟨rfl, List.forall_mem_nil _, hne, hunbroken, ?_⟩
      obtain ⟨c, more, rfl⟩ := List.exists_cons_of_ne_nil hblanks
      intro d hd
      obtain rfl := Option.some.inj hd
      exact hblank _ List.mem_cons_self
    have hcomment := beginsWith_append_comment commentMark comment (by decide) hmark
    rw [hversion.tokens_eq, Text.tokens_append_of_isBlankText hblank, hcomment.tokens_eq, declared?,
      List.head?_cons, Option.all_some, isComment_append_mark, List.append_nil]
    rfl
  | firstWord hends =>
    have hattached := beginsWith_append_comment (version ++ commentMark) comment (by simp [hne])
      (List.forall_mem_append.mpr ⟨hunbroken, hmark⟩)
    rw [List.nil_append, ← List.append_assoc, hattached.tokens_eq, declared?, if_pos rfl, if_pos]
    · rw [List.append_assoc]
    · rw [goesOn_iff, Bool.not_eq_false] at hends
      exact hends
  | upToMark hgoes hword hlast =>
    have hattached := beginsWith_append_comment (version ++ commentMark) comment (by simp [hne])
      (List.forall_mem_append.mpr ⟨hunbroken, hmark⟩)
    rw [List.nil_append, ← List.append_assoc, hattached.tokens_eq, declared?, if_pos rfl, if_neg]
    · rw [List.append_assoc, hword, ← List.append_assoc]
      exact beforeComment?_split (by simp [hne]) hlast
    · rw [goesOn_iff.mp hgoes]
      decide

/-- **Comments.** A directive with a comment behind it has a version, and this is the version as it was
written with what is swallowed of the comment. It is exactly the version as it was written if there are
blanks before the comment; without them, only if the comment goes on behind its first blank and its first
word makes no later mark. -/
theorem directive_before_comment (hne : version ≠ []) (hunbroken : ∀ c ∈ version, isBlank c = false)
    (hblank : IsBlankText blanks) (hline : '\n' ∉ blanks) (hcomment : '\n' ∉ comment) :
    (∃ swallowed, Swallowed blanks comment swallowed ∧
      directive? ("go ".toList ++ version ++ blanks ++ "//".toList ++ comment) =
        some (String.ofList (version ++ swallowed))) ∧
      (directive? ("go ".toList ++ version ++ blanks ++ "//".toList ++ comment) =
          some (String.ofList version) ↔
        blanks ≠ [] ∨ GoesOn comment ∧ ¬ commentMark <:+: '/' :: firstWord comment) := by
  obtain ⟨swallowed, h⟩ := exists_swallowed blanks comment
  have htext : "go ".toList ++ version ++ blanks ++ "//".toList ++ comment =
      "go ".toList ++ (version ++ (blanks ++ (commentMark ++ comment))) := by
    simp only [List.append_assoc]
    rfl
  have hversion : '\n' ∉ version := by
    intro hfeed
    have hblank := hunbroken '\n' hfeed
    contradiction
  have hfeed : '\n' ∉ "go ".toList ++ (version ++ (blanks ++ (commentMark ++ comment))) := by
    simp [hversion, hline, hcomment, commentMark]
  have hdirective : directive? ("go ".toList ++ version ++ blanks ++ "//".toList ++ comment) =
      some (String.ofList (version ++ swallowed)) := by
    rw [htext, directive?_line hfeed, declared?_of_swallowed hne hunbroken hblank h]
    rfl
  refine ⟨⟨swallowed, h, hdirective⟩, ?_⟩
  rw [hdirective, ← h.eq_nil_iff, Option.some_inj, String.ofList_inj, List.append_right_eq_self]

/-- The comment is attached to the version, but it has a second word. -/
theorem directive_before_attached_comment :
    GoesOn "least version".toList ∧ ¬ commentMark <:+: '/' :: firstWord "least version".toList ∧
      directive? ("go ".toList ++ "1.18".toList ++ [] ++ "//".toList ++ "least version".toList) =
        some (String.ofList "1.18".toList) := by
  have htoken : (tokens (afterFirstWord "least version".toList)).head? = some "version".toList := by
    decide
  have hgoes : GoesOn "least version".toList := ⟨"version".toList, htoken, by decide⟩
  have hmark : ¬ commentMark <:+: '/' :: firstWord "least version".toList :=
    not_mark_of_notMem (by decide)
  have hunbroken : ∀ c ∈ "1.18".toList, isBlank c = false := Text.unbroken_of_all (by decide)
  have hblank : IsBlankText [] := List.forall_mem_nil _
  have hcomment : '\n' ∉ "least version".toList := by decide
  obtain ⟨-, hdirective⟩ :=
    directive_before_comment (by decide) hunbroken hblank List.not_mem_nil hcomment
  exact ⟨hgoes, hmark, hdirective.mpr (.inr ⟨hgoes, hmark⟩)⟩

/-- The comment of one word is a part of the version. Of two marks in a comment's first word the later one
ends the version. -/
theorem comment_in_version :
    directive? "go 1.21//least".toList = some "1.21//least" ∧
      directive? "go 1.21//least//version of all".toList = some "1.21//least" := by
  decide

end ToolchainChoice.Workspace
