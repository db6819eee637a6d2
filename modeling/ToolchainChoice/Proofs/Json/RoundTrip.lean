import ToolchainChoice.Proofs.Json.Grammar

/-!
# Reading JSON back

What is written for a value is one of its texts, on one line and indented: the two layouts differ by
the blanks between tokens only. So a value is read back from either, with halves of characters put
together where they stand side by side in a string or a key. Of a value nothing is assumed but that
its numbers are literals; a number is written as it is, and would not be read back otherwise.
-/
namespace ToolchainChoice.Json

/-- Every number in a value is a literal. -/
inductive HasLiterals : Json → Prop where
  | null : HasLiterals .null
  | bool (b : Bool) : HasLiterals (.bool b)
  | number {literal : String} (h : isNumber literal.toList = true) : HasLiterals (.number literal)
  | string (text : Symbols) : HasLiterals (.string text)
  | array {items : List Json} (h : ∀ item ∈ items, HasLiterals item) : HasLiterals (.array items)
  | object {members : List (Symbols × Json)} (h : ∀ member ∈ members, HasLiterals member.2) :
      HasLiterals (.object members)

/-- Texts with commas between them, and a gap after every comma. -/
def commas (gap : List Char) : List (List Char) → List Char
  | [] => []
  | [cs] => cs
  | cs :: css => cs ++ ',' :: (gap ++ commas gap css)

/-- A member on one line, up to the end of its value. -/
def memberText (write : Json → List Char) (member : Symbols × Json) : List Char :=
  quote member.1 ++ ':' :: ' ' :: write member.2

theorem inlineItems_eq (items : List Json) :
    inlineItems items = commas [' '] (items.map inline) := by
  induction items with
  | nil => rfl
  | cons item items ih =>
    cases items with
    | nil => rfl
    | cons item' items =>
      rw [inlineItems, ih]
      · rfl
      · simp

theorem inlineMembers_eq (members : List (Symbols × Json)) :
    inlineMembers members = commas [' '] (members.map (memberText inline)) := by
  induction members with
  | nil => rfl
  | cons member members ih =>
    obtain ⟨key, value⟩ := member
    cases members with
    | nil => rfl
    | cons member' members =>
      rw [inlineMembers, ih]
      · simp [commas, memberText]
      · simp

theorem indentedItems_eq (depth : Nat) (items : List Json) :
    indentedItems depth items = commas (newline depth) (items.map (indented depth)) := by
  induction items with
  | nil => rfl
  | cons item items ih =>
    cases items with
    | nil => rfl
    | cons item' items =>
      rw [indentedItems, ih]
      · simp [commas]
      · simp

theorem indentedMembers_eq (depth : Nat) (members : List (Symbols × Json)) :
    indentedMembers depth members =
      commas (newline depth) (members.map (memberText (indented depth))) := by
  induction members with
  | nil => rfl
  | cons member members ih =>
    obtain ⟨key, value⟩ := member
    cases members with
    | nil => rfl
    | cons member' members =>
      rw [indentedMembers, ih]
      · simp [commas, memberText]
      · simp

theorem Written.gap {p : Part} {gap cs : List Char} (h : Written p cs)
    (hgap : ∀ c ∈ gap, isSpace c = true) : Written p (gap ++ cs) := by
  induction gap with
  | nil => exact h
  | cons c gap ih =>
    have hgap := List.forall_mem_cons.mp hgap
    exact .space hgap.1 (ih hgap.2)

/-- Items are written with commas between them; the gaps are blanks. -/
theorem written_items {write : Json → List Char} {gap close : List Char}
    (hgap : ∀ c ∈ gap, isSpace c = true) (hclose : ∀ c ∈ close, isSpace c = true)
    {items : List Json} (hne : items ≠ [])
    (h : ∀ item ∈ items, Written (.value item.paired) (write item)) :
    Written (.items (pairedItems items)) (commas gap (items.map write) ++ (close ++ [']'])) := by
  induction items with
  | nil => contradiction
  | cons item items ih =>
    have h := List.forall_mem_cons.mp h
    cases items with
    | nil => exact .lastItem h.1 hclose
    | cons item' items =>
      have hitems := (ih (by simp) h.2).gap hgap
      have hwritten := Written.item h.1 hitems
      simpa only [pairedItems, List.map_cons, commas, List.append_assoc, List.cons_append]
        using hwritten

theorem written_members {write : Json → List Char} {gap close : List Char}
    (hgap : ∀ c ∈ gap, isSpace c = true) (hclose : ∀ c ∈ close, isSpace c = true)
    {members : List (Symbols × Json)} (hne : members ≠ [])
    (h : ∀ member ∈ members, Written (.value member.2.paired) (write member.2)) :
    Written (.members (pairedMembers members))
      (commas gap (members.map (memberText write)) ++ (close ++ ['\x7d'])) := by
  induction members with
  | nil => contradiction
  | cons member members ih =>
    have h := List.forall_mem_cons.mp h
    have hvalue : Written (.value member.2.paired) (' ' :: write member.2) :=
      .space (by decide) h.1
    cases members with
    | nil =>
      have hwritten := Written.lastMember member.1 hvalue hclose
      simpa only [pairedMembers, List.map_cons, List.map_nil, commas, memberText,
        List.append_assoc, List.cons_append] using hwritten
    | cons member' members =>
      have hmembers := (ih (by simp) h.2).gap hgap
      have hwritten := Written.member member.1 hvalue hmembers
      simpa only [pairedMembers, List.map_cons, commas, memberText, List.append_assoc,
        List.cons_append] using hwritten

theorem isSpace_of_mem_space : ∀ c ∈ [' '], isSpace c = true := by
  intro c hc
  rw [List.mem_singleton.mp hc]
  rfl

theorem isSpace_of_mem_newline (depth : Nat) : ∀ c ∈ newline depth, isSpace c = true := by
  intro c hc
  rcases List.mem_cons.mp hc with rfl | hc
  · decide
  · rw [List.eq_of_mem_replicate hc]
    decide

variable {j : Json}

theorem HasLiterals.written_inline (h : j.HasLiterals) : Written (.value j.paired) (inline j) := by
  induction h with
  | null => exact .null
  | bool b => exact .bool b
  | number h => exact .number h
  | string text => exact .string text
  | @array items h ih =>
    rw [inline, inlineItems_eq]
    by_cases hne : items = []
    · subst hne
      exact .emptyArray
    · have hitems := written_items isSpace_of_mem_space (List.forall_mem_nil _) hne ih
      exact .array hitems
  | @object members h ih =>
    rw [inline, inlineMembers_eq]
    by_cases hne : members = []
    · subst hne
      exact .emptyObject
    · have hmembers := written_members isSpace_of_mem_space (List.forall_mem_nil _) hne ih
      exact .object hmembers

/-- The depth grows with the nesting, so the induction is for every depth. -/
theorem HasLiterals.written_indented (h : j.HasLiterals) (depth : Nat) :
    Written (.value j.paired) (indented depth j) := by
  induction h generalizing depth with
  | null => exact .null
  | bool b => cases b <;> exact .bool _
  | number h => exact .number h
  | string text => exact .string text
  | @array items h ih =>
    cases items with
    | nil => exact .emptyArray
    | cons item items =>
      have hitems := written_items (isSpace_of_mem_newline (depth + 1))
        (isSpace_of_mem_newline depth) (List.cons_ne_nil item items)
        fun item hitem => ih item hitem (depth + 1)
      have hwritten := Written.array (hitems.gap (isSpace_of_mem_newline (depth + 1)))
      rw [paired, indented, indentedItems_eq]
      · simpa only [List.append_assoc, List.cons_append] using hwritten
      · simp
  | @object members h ih =>
    cases members with
    | nil => exact .emptyObject
    | cons member members =>
      have hmembers := written_members (isSpace_of_mem_newline (depth + 1))
        (isSpace_of_mem_newline depth) (List.cons_ne_nil member members)
        fun member hmember => ih member hmember (depth + 1)
      have hwritten := Written.object (hmembers.gap (isSpace_of_mem_newline (depth + 1)))
      rw [paired, indented, indentedMembers_eq]
      · simpa only [List.append_assoc, List.cons_append] using hwritten
      · simp

/-! ## Whole texts -/

theorem decode?_of_written {text : String} (h : Written (.value j) text.toList) :
    decode? text = some j := by
  have hread : value? (text.length + 1) text.toList = some (j, []) := by
    have hlength : text.toList.length < text.length + 1 := by
      rw [String.length_toList]
      exact Nat.lt_succ_self _
    have hends : Ends [] := fun c hc => absurd hc (by simp)
    have hwritten := h.isRead hlength hends
    rw [List.append_nil] at hwritten
    exact hwritten
  unfold decode?
  rw [hread]
  rfl

/-- A value is read back from its text on one line. -/
theorem decode?_encode (h : j.HasLiterals) : decode? j.encode = some j.paired := by
  refine decode?_of_written ?_
  rw [encode, String.toList_ofList]
  exact h.written_inline

/-- A value is read back from its indented text. -/
theorem decode?_encodeIndented (h : j.HasLiterals) : decode? j.encodeIndented = some j.paired := by
  refine decode?_of_written ?_
  rw [encodeIndented, String.toList_ofList]
  exact h.written_indented 0

end ToolchainChoice.Json
