import ToolchainChoice.Proofs.Yaml.Endings
import ToolchainChoice.Yaml.Scanner

/-!
# How scanning ends

The scanner fails, apart from faults of the text, for a number of a version that is too long, for an escape
by a code that no character has, and for the fault behind the text, which it carries along unchanged.
-/
namespace ToolchainChoice.Yaml

variable {cs : List Char}

/-! ## Anchors, tags and directives -/

theorem anchorName_ends : EndsSomehow (anchorName cs) := by
  unfold anchorName
  exact ends_ite ends_rejectAt (ends_ite endsSomehow_ok ends_reject)

theorem escapedOctets_ends (cs : List Char) : EndsSomehow (escapedOctets cs) := by
  fun_induction escapedOctets cs with
  | case1 a b cs n hn ih => exact endsSomehow_map ih
  | case2 => exact ends_reject
  | case3 => exact ends_rejectAt
  | case4 => exact endsSomehow_ok

theorem tagChars_ends (rounds : Nat) (cs : List Char) : EndsSomehow (tagChars rounds cs) := by
  induction rounds generalizing cs with
  | zero => exact endsSomehow_ok
  | succ rounds ih =>
    cases cs with
    | nil => exact endsSomehow_ok
    | cons c rest =>
      rw [tagChars]
      refine ends_ite ?_ (ends_ite (endsSomehow_map (ih rest)) endsSomehow_ok)
      refine endsSomehow_bind (escapedOctets_ends (c :: rest)) fun (octets, rest) => ?_
      dsimp only
      split
      · exact ends_reject
      · exact endsSomehow_bind (ih rest) fun _ => endsSomehow_ok

theorem tagSuffix_ends (cs : List Char) : EndsSomehow (tagSuffix cs) :=
  ends_ite (endsSomehow_map (tagChars_ends cs.length cs)) ends_rejectAt

theorem tagHandle_ends (cs : List Char) : EndsSomehow (tagHandle cs) := by
  unfold tagHandle
  split
  · refine ends_ite endsSomehow_ok ?_
    split
    · exact endsSomehow_ok
    · exact ends_rejectAt
  · exact ends_rejectAt

theorem writtenTag_ends (cs : List Char) : EndsSomehow (writtenTag cs) := by
  unfold writtenTag
  extract_lets last
  have hlast : ∀ found, EndsSomehow (last found) := fun _ => ends_ite endsSomehow_ok ends_reject
  split
  · refine endsSomehow_bind (tagSuffix_ends _) fun (suffix, rest) => ?_
    split
    · exact endsSomehow_bind endsSomehow_ok hlast
    · exact endsSomehow_bind ends_rejectAt hlast
  · refine ends_ite (endsSomehow_bind endsSomehow_ok hlast) (ends_ite ?_ ?_)
    · refine endsSomehow_bind (tagHandle_ends _) fun (handle, rest) => ?_
      refine endsSomehow_bind (tagSuffix_ends _) fun (suffix, rest) => ?_
      exact endsSomehow_bind endsSomehow_ok hlast
    · refine endsSomehow_bind (tagSuffix_ends _) fun (suffix, rest) => ?_
      exact endsSomehow_bind endsSomehow_ok hlast

theorem versionNumber_ends (cs : List Char) : EndsSomehow (versionNumber cs) :=
  ends_ite ends_rejectAt (ends_ite endsSomehow_ok (ends_failWith .numberTooLong))

theorem versionDirective_ends (cs : List Char) : EndsSomehow (versionDirective cs) := by
  unfold versionDirective
  refine endsSomehow_bind (versionNumber_ends _) fun (major, rest) => ?_
  split
  · exact endsSomehow_bind (versionNumber_ends _) fun _ => ends_ite endsSomehow_ok ends_reject
  · exact ends_rejectAt

theorem tagDirective_ends (cs : List Char) : EndsSomehow (tagDirective cs) := by
  unfold tagDirective
  refine endsSomehow_bind (tagHandle_ends _) fun (handle, rest) => ends_ite ?_ ends_rejectAt
  exact endsSomehow_bind (tagSuffix_ends _) fun _ => ends_ite endsSomehow_ok ends_reject

theorem directive_ends (cs : List Char) : EndsSomehow (directive cs) := by
  unfold directive
  refine ends_ite ends_rejectAt ?_
  extract_lets last
  have hlast : ∀ found, EndsSomehow (last found) := by
    intro (d, rest)
    dsimp only [last]
    split
    · exact endsSomehow_ok
    · exact ends_reject
  refine ends_ite ?_ (ends_ite ?_ ?_)
  · exact endsSomehow_bind (versionDirective_ends _) hlast
  · exact endsSomehow_bind (tagDirective_ends _) hlast
  · exact endsSomehow_bind endsSomehow_ok hlast

/-! ## Quoted scalars -/

theorem escapeCode_ends (length : Nat) (cs : List Char) : EndsSomehow (escapeCode length cs) :=
  ends_ite (ends_ite endsSomehow_ok ends_unfinished) ends_reject

theorem ofCode_ends (code : Nat) : EndsSomehow (ofCode code) := by
  unfold ofCode
  split
  · exact endsSomehow_ok
  · exact ends_failWith (.noSuchCharacter code)

theorem quotedLines_ends (atLineStart : Bool) (cs : List Char) :
    EndsSomehow (quotedLines atLineStart cs) := by
  induction cs generalizing atLineStart with
  | nil => exact ends_ite ends_reject endsSomehow_ok
  | cons c cs ih =>
    rw [quotedLines]
    exact ends_ite ends_reject (ends_ite (ih false) (ends_ite (endsSomehow_map (ih true)) endsSomehow_ok))

theorem escape_ends (cs : List Char) : EndsSomehow (escape cs) := by
  unfold escape
  split
  · exact ends_unfinished
  · split
    · exact endsSomehow_ok
    · split
      · refine endsSomehow_bind (escapeCode_ends _ _) fun code => ?_
        exact endsSomehow_bind (ofCode_ends code) fun _ => endsSomehow_ok
      · exact ends_ite (endsSomehow_map (quotedLines_ends true _)) ends_reject

theorem quotedTail_ends (double : Bool) (rounds : Nat) (cs : List Char) :
    EndsSomehow (quotedTail double rounds cs) := by
  induction rounds generalizing cs with
  | zero => exact ends_unfinished
  | succ rounds ih =>
    unfold quotedTail
    extract_lets go gap
    -- every way on goes through `go`, which carries the error of the rest along
    have hgo : ∀ part rest, EndsSomehow (go part rest) := fun part rest => endsSomehow_map (ih rest)
    cases cs with
    | nil => exact ends_unfinished
    | cons c rest =>
      refine ends_ite ?_ (ends_ite (ends_ite endsSomehow_ok (ends_ite ?_ (hgo _ _))) (ends_ite ?_ (hgo _ _)))
      · split
        · exact ends_unfinished
        · rename_i b after _
          refine ends_ite ?_ (hgo _ _)
          have hlines := quotedLines_ends true after
          split
          · rename_i e he
            rwa [he] at hlines
          · exact hgo _ _
      · have hescape := escape_ends rest
        split
        · rename_i e he
          rwa [he] at hescape
        · exact hgo _ _
      · split
        · exact hgo _ _
        · exact endsSomehow_ok

theorem quotedScalar_ends (double : Bool) (cs : List Char) : EndsSomehow (quotedScalar double cs) :=
  quotedTail_ends double (cs.length + 1) cs

/-! ## Block scalars -/

theorem incrementDigit?_ends (cs : List Char) : EndsSomehow (incrementDigit? cs) := by
  unfold incrementDigit?
  split
  · exact ends_ite ends_reject (ends_ite endsSomehow_ok endsSomehow_ok)
  · exact endsSomehow_ok

theorem blockHeader_ends (cs : List Char) : EndsSomehow (blockHeader cs) := by
  unfold blockHeader
  extract_lets last
  have hlast : ∀ found, EndsSomehow (last found) := by
    intro (header, rest)
    refine ends_ite ?_ ends_reject
    split
    · exact endsSomehow_ok
    · exact ends_reject
  split
  · refine endsSomehow_bind (incrementDigit?_ends _) fun (increment, rest) => ?_
    exact endsSomehow_bind endsSomehow_ok hlast
  · refine endsSomehow_bind (incrementDigit?_ends _) fun (increment, rest) => ?_
    dsimp only
    split
    · exact endsSomehow_bind endsSomehow_ok hlast
    · exact endsSomehow_bind endsSomehow_ok hlast

theorem blockScalar_ends (folded : Bool) (parent : Int) (cs : List Char) :
    EndsSomehow (blockScalar folded parent cs) := by
  unfold blockScalar
  refine endsSomehow_bind (blockHeader_ends cs) fun (header, rest) => ?_
  exact ends_ite endsSomehow_ok endsSomehow_ok

/-! ## The scanner -/

namespace Scanner

variable {s : Scanner}

/-- The scanner goes on with the same fault behind its text. -/
abbrev GoesOn (s : Scanner) (x : Result Scanner) : Prop := Ends (fun s' => s'.fault = s.fault) x

theorem fault_pass (s : Scanner) (c : Char) : (s.pass c).fault = s.fault := by
  unfold pass
  split
  · rfl
  · split <;> rfl

theorem fault_foldl_pass (s : Scanner) (cs : List Char) : (cs.foldl pass s).fault = s.fault := by
  induction cs generalizing s with
  | nil => rfl
  | cons c cs ih => exact (ih (s.pass c)).trans (fault_pass s c)

@[simp] theorem fault_advance (s : Scanner) (n : Nat) : (s.advance n).fault = s.fault :=
  fault_foldl_pass s _

@[simp] theorem fault_moveTo (s : Scanner) (rest : List Char) : (s.moveTo rest).fault = s.fault :=
  fault_foldl_pass s _

@[simp] theorem fault_skipWhile (s : Scanner) (p : Char → Bool) : (s.skipWhile p).fault = s.fault :=
  fault_advance s _

@[simp] theorem fault_skipBlank (rounds : Nat) (s : Scanner) : (s.skipBlank rounds).fault = s.fault := by
  induction rounds generalizing s with
  | zero => rfl
  | succ rounds ih =>
    unfold skipBlank
    extract_lets s₁ s₂
    have hs₂ : s₂.fault = s.fault := by
      dsimp only [s₂]
      split <;> simp [s₁]
    split
    · rw [ih]
      exact (fault_advance s₂ 1).trans hs₂
    · exact hs₂

@[simp] theorem fault_toNextToken (s : Scanner) : s.toNextToken.fault = s.fault := by
  unfold toNextToken
  split <;> simp

@[simp] theorem fault_endBlocks (column indent : Int) (s : Scanner) (outer : List Int) :
    (s.endBlocks column indent outer).fault = s.fault := by
  induction outer generalizing s indent with
  | nil => rfl
  | cons next outer ih =>
    unfold endBlocks
    split
    · rw [ih]
      rfl
    · rfl

@[simp] theorem fault_unwind (s : Scanner) (column : Int) : (s.unwind column).fault = s.fault := by
  unfold unwind
  split <;> simp

@[simp] theorem fault_beginBlock (s : Scanner) (column n : Nat) (t : Token) :
    (s.beginBlock column n t).fault = s.fault := by
  unfold beginBlock
  split <;> rfl

/-- Steps in sequence go on with the fault that was there before the first. -/
theorem goesOn_bind {x : Result Scanner} {f : Scanner → Result Scanner} (hx : s.GoesOn x)
    (hf : ∀ s' : Scanner, s'.GoesOn (f s')) : s.GoesOn (x >>= f) :=
  hx.bind fun s' h => (hf s').mono fun _ h' => h'.trans h

theorem dropStale_goesOn (s : Scanner) : s.GoesOn s.dropStale := ends_ite ends_reject (ends_ok rfl)

theorem dropCandidate_goesOn (s : Scanner) : s.GoesOn s.dropCandidate :=
  ends_ite ends_reject (ends_ok rfl)

theorem saveCandidate_goesOn (s : Scanner) : s.GoesOn s.saveCandidate :=
  ends_ite (goesOn_bind (dropCandidate_goesOn s) fun _ => ends_pure rfl) (ends_ok rfl)

/-- A scanner that ends its blocks goes on like the one before. -/
theorem GoesOn.of_unwind {column : Int} {x : Result Scanner} (h : (s.unwind column).GoesOn x) :
    s.GoesOn x :=
  h.mono fun _ h' => h'.trans (fault_unwind s column)

theorem endDocument_goesOn (s : Scanner) : s.GoesOn s.endDocument :=
  GoesOn.of_unwind (goesOn_bind (dropCandidate_goesOn _) fun _ => ends_pure rfl)

theorem documentMark_goesOn (s : Scanner) (t : Token) : s.GoesOn (s.documentMark t) :=
  goesOn_bind (endDocument_goesOn s) fun s' => ends_pure (fault_advance s' 3)

theorem flowStart_goesOn (s : Scanner) (t : Token) : s.GoesOn (s.flowStart t) :=
  goesOn_bind (saveCandidate_goesOn s) fun s' => ends_pure (fault_advance s' 1)

theorem flowEnd_goesOn (s : Scanner) (t : Token) : s.GoesOn (s.flowEnd t) :=
  ends_ite (goesOn_bind (dropCandidate_goesOn s) fun s' => ends_pure (fault_advance s' 1)) ends_reject

theorem comma_goesOn (s : Scanner) : s.GoesOn s.comma :=
  goesOn_bind (dropCandidate_goesOn s) fun s' => ends_pure (fault_advance s' 1)

/-- A mark after the block that it may begin. -/
theorem mark_goesOn (s : Scanner) (block t : Token) (allowed : Scanner → Bool) :
    s.GoesOn do
      let s := if s.inFlow then s else s.beginBlock s.column s.count block
      let s ← s.dropCandidate
      return { (s.advance 1).push t with keyAllowed := allowed s } := by
  refine (dropCandidate_goesOn _).bind fun s' h => ends_pure ((fault_advance s' 1).trans (h.trans ?_))
  split <;> simp

theorem blockEntry_goesOn (s : Scanner) : s.GoesOn s.blockEntry :=
  ends_ite ends_reject (mark_goesOn s .blockSequence .entry fun _ => true)

theorem keyMark_goesOn (s : Scanner) : s.GoesOn s.keyMark :=
  ends_ite ends_reject (mark_goesOn s .blockMapping .key fun s => !s.inFlow)

theorem valueMark_goesOn (s : Scanner) : s.GoesOn s.valueMark := by
  unfold valueMark
  split
  · refine ends_ok ((fault_advance _ 1).trans ?_)
    split
    · rfl
    · exact fault_beginBlock ..
  · exact ends_ite ends_reject (mark_goesOn s .blockMapping .value fun s => !s.inFlow)

theorem aliasToken_goesOn (s : Scanner) (cs : List Char) : s.GoesOn (s.aliasToken cs) :=
  goesOn_bind (saveCandidate_goesOn s) fun s' =>
    anchorName_ends.bind fun (_, rest) _ => ends_pure (fault_moveTo s' rest)

theorem anchorToken_goesOn (s : Scanner) (cs : List Char) : s.GoesOn (s.anchorToken cs) :=
  goesOn_bind (saveCandidate_goesOn s) fun s' =>
    anchorName_ends.bind fun (_, rest) _ => ends_pure (fault_moveTo s' rest)

theorem tagToken_goesOn (s : Scanner) (cs : List Char) : s.GoesOn (s.tagToken cs) :=
  goesOn_bind (saveCandidate_goesOn s) fun s' =>
    (writtenTag_ends cs).bind fun (_, rest) _ => ends_pure (fault_moveTo s' rest)

theorem quotedToken_goesOn (s : Scanner) (double : Bool) (cs : List Char) :
    s.GoesOn (s.quotedToken double cs) :=
  goesOn_bind (saveCandidate_goesOn s) fun s' =>
    (quotedScalar_ends double cs).bind fun (_, rest) _ => ends_pure (fault_moveTo s' rest)

theorem blockToken_goesOn (s : Scanner) (folded : Bool) (cs : List Char) :
    s.GoesOn (s.blockToken folded cs) :=
  goesOn_bind (dropCandidate_goesOn s) fun s' =>
    (blockScalar_ends folded s'.indent cs).bind fun (_, rest) _ => ends_pure (fault_moveTo s' rest)

theorem plainToken_goesOn (s : Scanner) : s.GoesOn s.plainToken :=
  goesOn_bind (saveCandidate_goesOn s) fun s' => ends_pure (fault_moveTo s' _)

theorem directiveToken_goesOn (s : Scanner) (cs : List Char) : s.GoesOn (s.directiveToken cs) :=
  goesOn_bind (endDocument_goesOn s) fun s' =>
    (directive_ends cs).bind fun (_, rest) _ => ends_pure (fault_moveTo s' rest)

/-- Whatever token it is, the scanner goes on with the fault that it has. -/
theorem token_goesOn (s : Scanner) (c : Char) (cs : List Char) : s.GoesOn (s.token c cs) := by
  unfold token
  refine ends_ite (directiveToken_goesOn s cs) ?_
  refine ends_ite (documentMark_goesOn s _) (ends_ite (documentMark_goesOn s _) ?_)
  refine ends_ite (flowStart_goesOn s _) (ends_ite (flowStart_goesOn s _) ?_)
  refine ends_ite (flowEnd_goesOn s _) (ends_ite (flowEnd_goesOn s _) ?_)
  refine ends_ite (comma_goesOn s) (ends_ite (blockEntry_goesOn s) ?_)
  refine ends_ite (keyMark_goesOn s) (ends_ite (valueMark_goesOn s) ?_)
  refine ends_ite (aliasToken_goesOn s cs) (ends_ite (anchorToken_goesOn s cs) ?_)
  refine ends_ite (tagToken_goesOn s cs) ?_
  refine ends_ite (blockToken_goesOn s _ cs) (ends_ite (blockToken_goesOn s _ cs) ?_)
  refine ends_ite (quotedToken_goesOn s _ cs) (ends_ite (quotedToken_goesOn s _ cs) ?_)
  exact ends_ite (plainToken_goesOn s) ends_reject

theorem finish_goesOn (s : Scanner) : s.GoesOn s.finish :=
  GoesOn.of_unwind (goesOn_bind (dropCandidate_goesOn _) fun _ => ends_pure rfl)

/-! ## The fault behind the text -/

/-- The fault behind the text is one that reading can end with. -/
def IsRegular (s : Scanner) : Prop := ∀ fault, s.fault = some fault → fault.IsRegular

theorem IsRegular.of_eq {s' : Scanner} (h : s.IsRegular) (heq : s'.fault = s.fault) : s'.IsRegular := by
  intro fault hfault
  exact h fault (heq ▸ hfault)

theorem GoesOn.ends {x : Result Scanner} (h : s.GoesOn x) (hs : s.IsRegular) : Ends IsRegular x :=
  h.mono fun _ h' => hs.of_eq h'

theorem next_ends (h : s.IsRegular) : Ends IsRegular s.next := by
  unfold next
  extract_lets s₁
  have hs₁ : s₁.IsRegular := h.of_eq (fault_toNextToken s)
  -- only at the end of the text is the fault behind it reported; a token leaves it where it is
  split
  · rename_i fault _ hfault
    exact hs₁ fault hfault
  · exact (goesOn_bind (dropStale_goesOn s₁) finish_goesOn).ends hs₁
  · refine GoesOn.ends (goesOn_bind (dropStale_goesOn s₁) fun s₂ => ?_) hs₁
    exact (token_goesOn _ _ _).of_unwind

theorem fetch_ends (h : s.IsRegular) : Ends IsRegular s.fetch := by
  have hnext := next_ends h
  unfold fetch
  split
  · rename_i fault _ hfault
    exact h fault hfault
  · rename_i t fault ht hfault
    rw [ht] at hnext
    exact ends_ite (h fault hfault) hnext
  · exact hnext

theorem settleIn_ends (rounds : Nat) (h : s.IsRegular) : Ends IsRegular (s.settleIn rounds) := by
  induction rounds generalizing s with
  | zero => exact h
  | succ rounds ih =>
    unfold settleIn
    refine ends_ite h ?_
    extract_lets last
    have hlast : ∀ s', s'.IsRegular → Ends IsRegular (last s') := by
      intro s' hs'
      exact ends_ite hs' ((fetch_ends hs').bind fun _ => ih)
    refine ends_ite (Ends.bind (ends_pure h) hlast) ?_
    exact ((dropStale_goesOn s).ends h).bind hlast

theorem settle_ends (h : s.IsRegular) : Ends IsRegular s.settle := settleIn_ends s.rounds h

/-- At the start of a document the fault behind it is one of the text, or that it is no UTF-8. -/
theorem isRegular_ofParts (t : Files.PartialText) : (ofSource (.ofParts t)).IsRegular := by
  intro fault hfault
  unfold ofSource Source.ofParts at hfault
  dsimp only at hfault
  split at hfault
  · obtain rfl := Option.some.inj hfault
    nofun
  · split at hfault
    · contradiction
    · obtain rfl := Option.some.inj hfault
      exact isRegular_failure .notUtf8

end Scanner

end ToolchainChoice.Yaml
