import ToolchainChoice.Text.CodePoints

/-!
# White space

The white space characters of Unicode together with the four information separators U+001C to
U+001F. Stripping removes them from the ends of a text; nothing inside a text is touched.
-/
namespace ToolchainChoice.Text

def blankRanges : CodePoints :=
  [(0x09, 0x0D), (0x1C, 0x20), (0x85, 0x85), (0xA0, 0xA0), (0x1680, 0x1680), (0x2000, 0x200A),
   (0x2028, 0x2029), (0x202F, 0x202F), (0x205F, 0x205F), (0x3000, 0x3000)]

def isBlank (c : Char) : Bool := blankRanges.has c

/-- Every character that the core library calls white space is blank. -/
theorem isBlank_of_isWhitespace {c : Char} (h : c.isWhitespace = true) : isBlank c = true := by
  simp only [Char.isWhitespace, Bool.or_eq_true, decide_eq_true_eq] at h
  rcases h with ((rfl | rfl) | rfl) | rfl <;> decide

/-- Without the blanks at its start. -/
def stripStart (cs : List Char) : List Char := cs.dropWhile isBlank

/-- Without the blanks at its end. -/
def stripEnd : List Char → List Char
  | [] => []
  | c :: cs =>
    match stripEnd cs with
    | [] => if isBlank c then [] else [c]
    | d :: ds => c :: d :: ds

/-- Without the blanks at either end. -/
def strip (cs : List Char) : List Char := stripEnd (stripStart cs)

theorem stripEnd_eq_nil_iff {cs : List Char} : stripEnd cs = [] ↔ ∀ c ∈ cs, isBlank c = true := by
  induction cs with
  | nil => simp [stripEnd]
  | cons c cs ih =>
    rw [stripEnd]
    cases h : stripEnd cs with
    | nil =>
      have hall := ih.1 h
      by_cases hb : isBlank c = true <;> simp [hb]
      exact hall
    | cons d ds =>
      simp only [List.mem_cons, forall_eq_or_imp, false_iff, not_and, reduceCtorEq]
      intro _ hall
      simp [ih.2 hall] at h

theorem stripEnd_cons {c : Char} (hc : isBlank c = false) (cs : List Char) :
    stripEnd (c :: cs) = c :: stripEnd cs := by
  rw [stripEnd]
  cases stripEnd cs with
  | nil => simp [hc]
  | cons d ds => rfl

theorem strip_cons {c : Char} (hc : isBlank c = false) (cs : List Char) :
    strip (c :: cs) = c :: stripEnd cs := by
  have hstart : stripStart (c :: cs) = c :: cs := List.dropWhile_cons_of_neg (by simp [hc])
  rw [strip, hstart, stripEnd_cons hc]

/-- What is left does not end with a blank, so nothing more is taken off. -/
theorem stripEnd_stripEnd (cs : List Char) : stripEnd (stripEnd cs) = stripEnd cs := by
  induction cs with
  | nil => rfl
  | cons c cs ih =>
    cases h : stripEnd cs with
    | nil => by_cases hc : isBlank c = true <;> simp [stripEnd, h, hc]
    | cons d ds =>
      rw [h] at ih
      have hkept : stripEnd (c :: cs) = c :: d :: ds := by rw [stripEnd, h]
      rw [hkept, stripEnd, ih]

/-- Blanks before a text make no difference to what it is without blanks. -/
theorem strip_blanks_append {blanks : List Char} (h : ∀ c ∈ blanks, isBlank c = true)
    (cs : List Char) : strip (blanks ++ cs) = strip cs :=
  congrArg stripEnd (List.dropWhile_append_of_pos h)

/-- Blanks at the end of a text do not survive. -/
theorem stripEnd_append {cs blanks : List Char} (h : ∀ c ∈ blanks, isBlank c = true) :
    stripEnd (cs ++ blanks) = stripEnd cs := by
  induction cs with
  | nil => simpa [stripEnd] using stripEnd_eq_nil_iff.2 h
  | cons c cs ih => simp [stripEnd, ih]

/-- Blanks after a text make no difference to what it is without blanks. -/
theorem strip_append {cs blanks : List Char} (h : ∀ c ∈ blanks, isBlank c = true) :
    strip (cs ++ blanks) = strip cs := by
  unfold strip stripStart
  rw [List.dropWhile_append]
  split
  · rename_i hnone
    have hblank : ∀ c ∈ blanks.dropWhile isBlank, isBlank c = true := by
      intro c hc
      exact h c ((List.dropWhile_sublist isBlank).subset hc)
    rw [List.isEmpty_iff.mp hnone, stripEnd_eq_nil_iff.2 hblank]
    rfl
  · exact stripEnd_append h

end ToolchainChoice.Text
