import ToolchainChoice.Yaml.Scanner

/-!
# Words

A word has letters, digits, low lines and points, and begins with a letter or a digit. Nothing in it means
anything else to the scanner, so it is a plain scalar as it stands, and in double quotes a quoted one. What
follows it decides where it ends: a colon with a blank behind it, or the end of the text, with or without
the end of its line before that.
-/
namespace ToolchainChoice.Yaml

variable {w rest more tail : List Char} {c d : Char}

/-! ## Characters -/

def isWordChar (c : Char) : Bool := c.isAlphanum || c == '_' || c == '.'

/-- No word char is any of the others. -/
theorem ne_of_isWordChar (h : isWordChar c = true) (hd : isWordChar d = false) : c ≠ d := by
  rintro rfl
  rw [h] at hd
  contradiction

theorem isBreak_of_isWordChar (h : isWordChar c = true) : isBreak c = false := by
  have hfeed := ne_of_isWordChar (d := '\n') h (by decide)
  have hnext := ne_of_isWordChar (d := '\x85') h (by decide)
  have hline := ne_of_isWordChar (d := '\u2028') h (by decide)
  have hparagraph := ne_of_isWordChar (d := '\u2029') h (by decide)
  simp [isBreak, hfeed, hnext, hline, hparagraph]

theorem isGap_of_isWordChar (h : isWordChar c = true) : isGap c = false := by
  have hspace := ne_of_isWordChar (d := ' ') h (by decide)
  have htab := ne_of_isWordChar (d := '\t') h (by decide)
  simp [isGap, hspace, htab]

theorem isWordChar_of_isAlphanum (h : c.isAlphanum = true) : isWordChar c = true := by
  simp [isWordChar, h]

/-- A word. -/
structure IsWord (w : List Char) : Prop where
  chars : ∀ c ∈ w, isWordChar c = true
  head : ∃ c cs, w = c :: cs ∧ c.isAlphanum = true

/-! ## Plain scalars -/

/-- A plain scalar stops where this follows. -/
def StopsWord (rest : List Char) : Prop := ∀ c cs, rest = c :: cs → stopsPlain false c cs = true

theorem stopsWord_nil : StopsWord [] := nofun

theorem stopsWord_feed : StopsWord ['\n'] := by
  rintro c cs heq
  obtain ⟨rfl, rfl⟩ := List.cons.inj heq
  rfl

theorem stopsWord_colon (h : endsToken more = true) : StopsWord (':' :: more) := by
  rintro c cs heq
  obtain ⟨rfl, rfl⟩ := List.cons.inj heq
  simp [stopsPlain, endsKey, h]

theorem plainRun_word (hw : ∀ c ∈ w, isWordChar c = true) (hrest : StopsWord rest) :
    plainRun false (w ++ rest) = (w, rest) := by
  induction w with
  | nil =>
    cases rest with
    | nil => rfl
    | cons c cs => rw [List.nil_append, plainRun, if_pos (hrest c cs rfl)]
  | cons c w ih =>
    obtain ⟨hc, hw⟩ := List.forall_mem_cons.mp hw
    have hcolon := ne_of_isWordChar (d := ':') hc (by decide)
    have hgoes : stopsPlain false c (w ++ rest) = false := by
      simp [stopsPlain, isGap_of_isWordChar hc, isBreak_of_isWordChar hc, hcolon]
    rw [List.cons_append, plainRun, if_neg (by rw [hgoes]; exact Bool.false_ne_true), ih hw]

/-- A word before a colon that ends a key. -/
theorem plainScalar_key (hw : IsWord w) (hmore : endsToken more = true) (indent : Int) (rounds : Nat) :
    plainScalar false indent (rounds + 1) (w ++ ':' :: more) = ⟨w, false, ':' :: more⟩ := by
  rw [plainScalar, plainRun_word hw.chars (stopsWord_colon hmore)]
  rfl

/-- The text ends, with or without the end of its line before that. -/
def IsLast (tail : List Char) : Prop := tail = [] ∨ tail = ['\n']

/-- A word at the end of the text. It would go on in the next line, but there is none that is indented. -/
theorem plainScalar_last (hw : IsWord w) (htail : IsLast tail) {indent : Int} (hindent : 0 < indent)
    (rounds : Nat) :
    plainScalar false indent (rounds + 1) (w ++ tail) = ⟨w, !tail.isEmpty, []⟩ := by
  rcases htail with rfl | rfl
  · rw [plainScalar, plainRun_word hw.chars stopsWord_nil]
    rfl
  · rw [plainScalar, plainRun_word hw.chars stopsWord_feed]
    have hgap : plainGap ['\n'] = ⟨[' '], true, 0, []⟩ := rfl
    dsimp only
    rw [hgap]
    simp [hindent]

/-! ## Quoted scalars -/

theorem quotedTail_word (hw : ∀ c ∈ w, isWordChar c = true) {n : Nat} (hn : w.length < n) :
    quotedTail true n (w ++ '"' :: tail) = .ok (w.map .char, tail) := by
  induction w generalizing n with
  | nil =>
    obtain ⟨m, rfl⟩ := Nat.exists_eq_add_one.mpr hn
    rfl
  | cons c w ih =>
    rw [List.length_cons] at hn
    obtain ⟨m, rfl⟩ : ∃ m, n = m + 1 := Nat.exists_eq_add_one.mpr (by omega)
    obtain ⟨hc, hw⟩ := List.forall_mem_cons.mp hw
    have hquote := ne_of_isWordChar (d := '"') hc (by decide)
    have hslash := ne_of_isWordChar (d := '\\') hc (by decide)
    have hrest := ih hw (n := m) (by omega)
    rw [List.cons_append]
    unfold quotedTail
    simp only [isGap_of_isWordChar hc, isBreak_of_isWordChar hc, hquote, hslash, hrest]
    rfl

theorem quotedScalar_word (hw : IsWord w) (tail : List Char) :
    quotedScalar true (w ++ '"' :: tail) = .ok (w.map .char, tail) := by
  refine quotedTail_word hw.chars ?_
  rw [List.length_append]
  omega

/-! ## Places -/

/-- The characters stand in one line, and all of them take a column. -/
def AreInline (cs : List Char) : Prop := ∀ c ∈ cs, isBreak c = false ∧ c ≠ byteOrderMark

theorem IsWord.areInline (h : IsWord w) : AreInline w := fun c hc =>
  ⟨isBreak_of_isWordChar (h.chars c hc), ne_of_isWordChar (h.chars c hc) (by decide)⟩

namespace Scanner

variable {s : Scanner}

theorem foldl_pass_of_areInline (s : Scanner) {cs : List Char} (h : AreInline cs) :
    cs.foldl pass s =
      { s with index := s.index + cs.length, column := s.column + cs.length } := by
  induction cs generalizing s with
  | nil => rfl
  | cons c cs ih =>
    obtain ⟨⟨hbreak, hmark⟩, hcs⟩ := List.forall_mem_cons.mp h
    have hpass : s.pass c = { s with index := s.index + 1, column := s.column + 1 } := by
      rw [pass, if_neg (by rw [hbreak]; exact Bool.false_ne_true), if_neg hmark]
    rw [List.foldl_cons, hpass, ih _ hcs, List.length_cons]
    simp only [Nat.add_assoc, Nat.add_comm 1]

/-- The scanner behind characters that stand in one line. -/
def behind (s : Scanner) (cs rest : List Char) : Scanner :=
  { s with index := s.index + cs.length, column := s.column + cs.length, rest := rest }

theorem moveTo_behind {cs : List Char} (h : AreInline cs) (hrest : s.rest = cs ++ rest) :
    s.moveTo rest = s.behind cs rest := by
  have htake : s.rest.take (s.rest.length - rest.length) = cs := by
    rw [hrest, List.length_append, Nat.add_sub_cancel, List.take_left]
  unfold moveTo
  rw [htake, foldl_pass_of_areInline s h]
  rfl

theorem advance_behind {cs : List Char} (h : AreInline cs) (hrest : s.rest = cs ++ rest) :
    s.advance cs.length = s.behind cs rest := by
  unfold advance
  rw [hrest, List.take_left, List.drop_left, foldl_pass_of_areInline s h]
  rfl

end Scanner

end ToolchainChoice.Yaml
