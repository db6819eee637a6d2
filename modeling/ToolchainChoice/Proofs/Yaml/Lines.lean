import ToolchainChoice.Proofs.Yaml.Words

/-!
# Lines with words

What the scanner makes of a line with one word for a key, and of a word at the end of the text. It begins a
mapping for a key that stands further to the right than the mapping around it, and ends all mappings where
the text ends.
-/
namespace ToolchainChoice.Yaml.Scanner

variable {s t : Scanner} {w rest more tail cs : List Char} {c : Char} {k n : Nat}

/-- The scanner is between two tokens and outside of flow collections: no token waits to be taken, and none
that has been taken can turn out to be a key. -/
structure IsClear (s : Scanner) : Prop where
  tokens : s.tokens = []
  candidates : s.candidates = []
  flow : s.flow = 0
  fault : s.fault = none
  finished : s.finished = false

/-! ## Blanks -/

theorem advance_zero (s : Scanner) : s.advance 0 = s := rfl

theorem skipWhile_of_head {p : Char → Bool} (h : ∀ c ∈ s.rest.head?, p c = false) : s.skipWhile p = s := by
  have htake : s.rest.takeWhile p = [] := by
    cases hrest : s.rest with
    | nil => rfl
    | cons c cs =>
      rw [hrest] at h
      rw [List.takeWhile_cons_of_neg (by simp [h c rfl])]
  unfold skipWhile
  rw [htake]
  exact advance_zero s

theorem IsClear.behind (h : s.IsClear) (w rest : List Char) : (s.behind w rest).IsClear :=
  ⟨h.tokens, h.candidates, h.flow, h.fault, h.finished⟩

/-- The next token begins here. -/
def BeginsToken (c : Char) : Prop := c ≠ ' ' ∧ c ≠ '#' ∧ isBreak c = false ∧ c ≠ byteOrderMark

theorem beginsToken_of_isWordChar (h : isWordChar c = true) : BeginsToken c :=
  ⟨ne_of_isWordChar h (by decide), ne_of_isWordChar h (by decide), isBreak_of_isWordChar h,
    ne_of_isWordChar h (by decide)⟩

theorem areInline_replicate (k : Nat) : AreInline (List.replicate k ' ') := by
  intro c hc
  rw [List.eq_of_mem_replicate hc]
  decide

theorem skipWhile_spaces (hrest : s.rest = List.replicate k ' ' ++ c :: cs) (hc : c ≠ ' ') :
    s.skipWhile (· == ' ') = s.behind (List.replicate k ' ') (c :: cs) := by
  have htake : s.rest.takeWhile (· == ' ') = List.replicate k ' ' := by
    rw [hrest, List.takeWhile_append_of_pos fun d hd => by simp [List.eq_of_mem_replicate hd],
      List.takeWhile_cons_of_neg (by simpa using hc), List.append_nil]
  unfold skipWhile
  rw [htake]
  exact advance_behind (areInline_replicate k) hrest

theorem skipBlank_spaces (hrest : s.rest = List.replicate k ' ' ++ c :: cs) (hc : BeginsToken c) (n : Nat) :
    s.skipBlank (n + 1) = s.behind (List.replicate k ' ') (c :: cs) := by
  obtain ⟨hspace, hcomment, hbreak, -⟩ := hc
  have hhead : (s.behind (List.replicate k ' ') (c :: cs)).rest = c :: cs := rfl
  rw [skipBlank, skipWhile_spaces hrest hspace]
  simp [hhead, hcomment, hbreak]

/-- The scanner in the next line, behind its indentation. -/
def inNextLine (s : Scanner) (k : Nat) (rest : List Char) : Scanner :=
  { s with
    rest := rest, index := s.index + 1 + k, line := s.line + 1, column := k, keyAllowed := true }

theorem IsClear.inNextLine (h : s.IsClear) (k : Nat) (rest : List Char) : (s.inNextLine k rest).IsClear :=
  ⟨h.tokens, h.candidates, h.flow, h.fault, h.finished⟩

theorem skipBlank_feed (hrest : s.rest = '\n' :: rest) (hflow : s.flow = 0) (n : Nat) :
    s.skipBlank (n + 1) = (s.inNextLine 0 rest).skipBlank n := by
  have hspace : s.skipWhile (· == ' ') = s := by
    refine skipWhile_of_head fun c hc => ?_
    rw [hrest] at hc
    obtain rfl := Option.some.inj hc
    rfl
  have hbreak : isBreak '\n' = true := rfl
  rw [skipBlank, hspace]
  obtain ⟨rest', rounds, fault, index, line, column, tokens, taken, finished, flow, indent, outer, keyAllowed,
    candidates⟩ := s
  obtain rfl := hrest
  obtain rfl := hflow
  simp [hbreak, inNextLine, advance, pass, inFlow]

theorem toNextToken_eq (h : ∀ c ∈ s.rest.head?, c ≠ byteOrderMark) :
    s.toNextToken = s.skipBlank s.rounds := by
  have hmark : ¬ (s.index = 0 ∧ s.rest.head? = some byteOrderMark) := fun hhead => h _ hhead.2 rfl
  unfold toNextToken
  rw [if_neg hmark]

theorem toNextToken_spaces (hrest : s.rest = List.replicate k ' ' ++ c :: cs) (hc : BeginsToken c)
    (hrounds : s.rounds = n + 1) : s.toNextToken = s.behind (List.replicate k ' ') (c :: cs) := by
  rw [toNextToken_eq, hrounds]
  · exact skipBlank_spaces hrest hc n
  · intro d hd
    rw [hrest] at hd
    cases k with
    | zero =>
      obtain rfl := Option.some.inj hd
      exact hc.2.2.2
    | succ k =>
      obtain rfl := Option.some.inj hd
      decide

/-- Nothing is skipped where a token begins. -/
theorem toNextToken_token (hrest : s.rest = c :: cs) (hc : BeginsToken c) (hrounds : s.rounds = n + 1) :
    s.toNextToken = s := by
  rw [toNextToken_spaces (k := 0) hrest hc hrounds]
  show { s with rest := c :: cs } = s
  rw [← hrest]

theorem toNextToken_line (hrest : s.rest = '\n' :: (List.replicate k ' ' ++ c :: cs)) (hc : BeginsToken c)
    (hflow : s.flow = 0) (hrounds : s.rounds = n + 2) :
    s.toNextToken = s.inNextLine k (c :: cs) := by
  rw [toNextToken_eq, hrounds, skipBlank_feed hrest hflow, skipBlank_spaces rfl hc]
  · simp [behind, inNextLine]
  · intro d hd
    rw [hrest] at hd
    obtain rfl := Option.some.inj hd
    decide

theorem toNextToken_last (hrest : s.rest = tail) (htail : IsLast tail) (hflow : s.flow = 0)
    (hrounds : s.rounds = n + 2) :
    s.toNextToken = s ∧ tail = [] ∨ s.toNextToken = s.inNextLine 0 [] := by
  have hnone : ∀ s : Scanner, s.rest = [] → ∀ n, s.skipBlank n = s := by
    intro s hs n
    cases n with
    | zero => rfl
    | succ n =>
      rw [skipBlank, skipWhile_of_head (by simp [hs])]
      simp [hs]
  rcases htail with rfl | rfl
  · rw [toNextToken_eq (by simp [hrest]), hnone s hrest]
    exact .inl ⟨rfl, rfl⟩
  · rw [toNextToken_eq (by simp [hrest]; decide), hrounds, skipBlank_feed hrest hflow, hnone _ rfl]
    exact .inr rfl

/-! ## One token -/

theorem indicators_eq : indicators = ['-', '?', ':', ',', '[', ']', '\x7b', '\x7d', '#', '&', '*', '!', '|',
    '>', '\'', '"', '%', '@', '\x60'] := by decide +kernel

theorem isSeparatedBy_of_ne {mark : Char} (h : c ≠ mark) (cs : List Char) :
    isSeparatedBy mark (c :: cs) = false := by
  unfold isSeparatedBy
  split
  · rename_i heq
    obtain ⟨rfl, -⟩ := List.cons.inj heq
    simp [h]
  · rfl

/-- What begins with a letter or a digit is a plain scalar. -/
theorem token_word (hc : c.isAlphanum = true) (s : Scanner) (cs : List Char) :
    s.token c cs = s.plainToken := by
  have hword := isWordChar_of_isAlphanum hc
  have hpoint : c ≠ '.' := by
    rintro rfl
    contradiction
  have hindicator : c ∉ indicators := by
    have hall : (indicators.all fun d => !isWordChar d) = true := by decide +kernel
    intro hmem
    have hother := List.all_eq_true.mp hall c hmem
    rw [hword] at hother
    contradiction
  have hplain : beginsPlain s.inFlow c cs = true := by
    simp [beginsPlain, isGap_of_isWordChar hword, hindicator]
  rw [indicators_eq] at hindicator
  simp only [List.mem_cons, not_or] at hindicator
  simp [token, isSeparatedBy_of_ne, hplain, hpoint, hindicator]

theorem unwind_of_le {column : Int} (hflow : s.flow = 0) (h : s.indent ≤ column) : s.unwind column = s := by
  obtain ⟨rest, rounds, fault, index, line, column', tokens, taken, finished, flow, indent, outer, keyAllowed,
    candidates⟩ := s
  obtain rfl := hflow
  cases outer with
  | nil => rfl
  | cons next outer =>
    have hnot : ¬ column < indent := Int.not_lt.mpr h
    show endBlocks _ column indent (next :: outer) = _
    rw [endBlocks, if_neg hnot]

theorem dropStale_of_isFresh (h : ∀ c ∈ s.candidates, s.isFresh c.2 = true) : s.dropStale = .ok s := by
  have hany : (s.candidates.any fun c => !s.isFresh c.2 && c.2.required) = false := by
    simp only [List.any_eq_false, Bool.and_eq_true, Bool.not_eq_true', not_and]
    intro c hc hstale
    rw [h c hc] at hstale
    contradiction
  have hfilter : (s.candidates.filter fun c => s.isFresh c.2) = s.candidates := List.filter_eq_self.mpr h
  unfold dropStale
  rw [hany, hfilter]
  rfl

theorem fetch_of_fault (h : s.fault = none) : s.fetch = s.next := by
  unfold fetch
  rw [h]
  cases s.next with
  | error e => cases e <;> rfl
  | ok t => rfl

/-- The next token is scanned where it begins, unless block collections end before it. -/
theorem next_of_token (hnext : s.toNextToken = t) (hrest : t.rest = c :: cs)
    (hfresh : ∀ c ∈ t.candidates, t.isFresh c.2 = true) (hflow : t.flow = 0) (hindent : t.indent ≤ t.column) :
    s.next = t.token c cs := by
  unfold next
  rw [hnext]
  simp only [hrest]
  rw [dropStale_of_isFresh hfresh]
  show (t.unwind t.column).token c cs = _
  rw [unwind_of_le hflow hindent]

/-- The scanner behind a plain scalar, from what saving a candidate and reading the scalar come to. -/
theorem plainToken_eq {scalar : PlainScalar} (hsaved : s.saveCandidate = .ok t)
    (hscalar : plainScalar t.inFlow (t.indent + 1) t.rounds t.rest = scalar) :
    s.plainToken =
      .ok { (t.moveTo scalar.rest).push (.scalar (scalar.text.map .char) true) with
        keyAllowed := scalar.atLineEnd } := by
  unfold plainToken
  rw [hsaved]
  subst hscalar
  rfl

theorem inFlow_eq_false (h : s.flow = 0) : s.inFlow = false := by
  unfold inFlow
  rw [h]
  rfl

/-! ## Keys -/

/-- The scanner where the next token may be a key. -/
def atKey (t : Scanner) : Scanner :=
  { t with candidates := [(0, ⟨t.taken, false, t.index, t.line, t.column⟩)] }

theorem saveCandidate_atKey (ht : t.IsClear) (hkey : t.keyAllowed = true) (hindent : t.indent < t.column) :
    t.saveCandidate = .ok t.atKey := by
  have hne : (t.indent == (t.column : Int)) = false := by
    simp only [beq_eq_false_iff_ne]
    omega
  unfold saveCandidate dropCandidate count
  simp [hkey, ht.candidates, ht.tokens, ht.flow, hne, bind, Except.bind, pure, Except.pure, atKey]

/-- The scanner behind a word that may be a key. -/
def behindWord (t : Scanner) (w rest : List Char) : Scanner :=
  { t.atKey.behind w rest with tokens := [.scalar (w.map .char) true], keyAllowed := false }

theorem plainToken_key (ht : t.IsClear) (hkey : t.keyAllowed = true) (hindent : t.indent < t.column)
    (hw : IsWord w) (hmore : endsToken more = true) (hrest : t.rest = w ++ ':' :: more)
    (hrounds : t.rounds = n + 1) :
    t.plainToken = .ok (t.behindWord w (':' :: more)) := by
  have hscalar : plainScalar t.inFlow (t.indent + 1) t.rounds t.rest = ⟨w, false, ':' :: more⟩ := by
    rw [inFlow_eq_false ht.flow, hrounds, hrest]
    exact plainScalar_key hw hmore (t.indent + 1) n
  have hmoved : t.atKey.moveTo (':' :: more) = t.atKey.behind w (':' :: more) :=
    moveTo_behind hw.areInline hrest
  rw [plainToken_eq (t := t.atKey) (saveCandidate_atKey ht hkey hindent) hscalar]
  show Except.ok _ = _
  rw [hmoved]
  simp [push, behindWord, behind, atKey, ht.tokens]

/-- The scanner behind a key and its colon: a mapping has begun where the key stands. -/
def behindKey (t : Scanner) (w more : List Char) : Scanner :=
  { t.behind (w ++ [':']) more with
    tokens := [.blockMapping, .key, .scalar (w.map .char) true, .value]
    indent := t.column
    outer := t.indent :: t.outer
    keyAllowed := false }

/-- A colon before a blank is one behind a key or before a value. -/
theorem token_colon (hmore : endsToken more = true) (s : Scanner) :
    s.token ':' more = s.valueMark := by
  simp [token, isSeparatedBy_of_ne, hmore]

theorem valueMark_behindWord (ht : t.IsClear) (hindent : t.indent < t.column) :
    (t.behindWord w (':' :: more)).valueMark = .ok (t.behindKey w more) := by
  have hcandidates := ht.candidates
  have hflow := ht.flow
  have hcolon : isBreak ':' = false := rfl
  have hmark : ':' ≠ byteOrderMark := by decide
  simp [valueMark, behindWord, behindKey, behind, atKey, hflow, hcandidates, insertAt, inFlow, beginBlock,
    hindent, advance, pass, push, hcolon, hmark, Nat.add_assoc]

/-! ## Settling -/

theorem settleIn_empty (htokens : s.tokens = []) (hfinished : s.finished = false) (n : Nat) :
    s.settleIn (n + 1) = s.fetch >>= settleIn n := by
  rw [settleIn]
  simp [htokens, hfinished, isSettled]

/-- A token that may be a key is not taken before it is known what follows it. -/
theorem settleIn_unsettled (htokens : s.tokens ≠ []) (hfresh : ∀ c ∈ s.candidates, s.isFresh c.2 = true)
    (hsettled : s.isSettled = false) (hfinished : s.finished = false) (n : Nat) :
    s.settleIn (n + 1) = s.fetch >>= settleIn n := by
  rw [settleIn, dropStale_of_isFresh hfresh]
  have hempty : s.tokens.isEmpty = false := List.isEmpty_eq_false_iff.mpr htokens
  simp [hempty, hfinished, hsettled, bind, Except.bind]

theorem settleIn_settled (htokens : s.tokens ≠ []) (hcandidates : s.candidates = []) (n : Nat) :
    s.settleIn n = .ok s := by
  have hstale : s.dropStale = .ok s := by
    refine dropStale_of_isFresh fun c hc => ?_
    rw [hcandidates] at hc
    contradiction
  have hsettled : s.isSettled = true := by
    simp [isSettled, hcandidates, htokens]
  cases n with
  | zero => rfl
  | succ n =>
    have hempty : s.tokens.isEmpty = false := List.isEmpty_eq_false_iff.mpr htokens
    rw [settleIn, hstale]
    simp [hempty, hsettled, bind, Except.bind, pure, Except.pure]

theorem settleIn_finished (hfinished : s.finished = true) (n : Nat) : s.settleIn n = .ok s := by
  cases n with
  | zero => rfl
  | succ n => rw [settleIn, if_pos hfinished]

/-- A word in front of the colon that makes a key of it. -/
structure BeginsKey (t : Scanner) (w more : List Char) : Prop extends t.IsClear where
  allowed : t.keyAllowed = true
  indented : t.indent < t.column
  word : IsWord w
  short : w.length ≤ keyLimit
  blank : endsToken more = true
  rest : t.rest = w ++ ':' :: more

theorem fetch_word (hs : s.fault = none) (hnext : s.toNextToken = t) (h : t.BeginsKey w more)
    (hrounds : t.rounds = n + 1) : s.fetch = .ok (t.behindWord w (':' :: more)) := by
  obtain ⟨c, cs, rfl, hc⟩ := h.word.head
  have hfresh : ∀ c ∈ t.candidates, t.isFresh c.2 = true := by simp [h.candidates]
  have hindent : t.indent ≤ t.column := Int.le_of_lt h.indented
  rw [fetch_of_fault hs, next_of_token hnext h.rest hfresh h.flow hindent, token_word hc,
    plainToken_key h.toIsClear h.allowed h.indented h.word h.blank h.rest hrounds]

theorem isFresh_behindWord (h : t.BeginsKey w more) :
    ∀ c ∈ (t.behindWord w (':' :: more)).candidates, (t.behindWord w (':' :: more)).isFresh c.2 = true := by
  intro c hc
  obtain rfl := List.mem_singleton.mp hc
  have hshort : t.index + w.length - t.index ≤ keyLimit := by
    rw [Nat.add_sub_cancel_left]
    exact h.short
  simpa [behindWord, behind, atKey, isFresh] using hshort

theorem fetch_colon (h : t.BeginsKey w more) (hrounds : t.rounds = n + 1) :
    (t.behindWord w (':' :: more)).fetch = .ok (t.behindKey w more) := by
  have hcolon : BeginsToken ':' := ⟨by decide, by decide, by decide, by decide⟩
  have hindented := h.indented
  have hnext := toNextToken_token (s := t.behindWord w (':' :: more)) rfl hcolon hrounds
  rw [fetch_of_fault (s := t.behindWord w (':' :: more)) h.fault,
    next_of_token hnext rfl (isFresh_behindWord h) h.flow, token_colon h.blank,
    valueMark_behindWord h.toIsClear hindented]
  show t.indent ≤ ((t.column + w.length : Nat) : Int)
  omega

/-- From the blanks in front of a key the scanner goes on behind its colon. The key is not settled before
that, as the mapping that it may begin would stand in front of it. -/
theorem settle_key (hs : s.IsClear) (hnext : s.toNextToken = t) (h : t.BeginsKey w more)
    (hrounds : s.rounds = n + 2) (ht : t.rounds = s.rounds) :
    s.settle = .ok (t.behindKey w more) := by
  have hunsettled : (t.behindWord w (':' :: more)).isSettled = false := by
    simp [behindWord, behind, atKey, isSettled]
  rw [hrounds] at ht
  unfold settle
  rw [hrounds, settleIn_empty hs.tokens hs.finished, fetch_word hs.fault hnext h ht]
  show settleIn (n + 1) _ = _
  rw [settleIn_unsettled (List.cons_ne_nil _ _) (isFresh_behindWord h) hunsettled h.finished,
    fetch_colon h ht]
  exact settleIn_settled (s := t.behindKey w more) (List.cons_ne_nil _ _) h.candidates n

/-! ## Values -/

theorem moveTo_frame (s : Scanner) (rest : List Char) :
    ∃ index line column, s.moveTo rest =
      { s with rest := rest, index := index, line := line, column := column } := by
  have hfold : ∀ (cs : List Char) (s : Scanner), ∃ index line column,
      cs.foldl pass s = { s with index := index, line := line, column := column } := by
    intro cs
    induction cs with
    | nil => exact fun s => ⟨s.index, s.line, s.column, rfl⟩
    | cons c cs ih =>
      intro s
      obtain ⟨index, line, column, hrest⟩ := ih (s.pass c)
      refine ⟨index, line, column, ?_⟩
      rw [List.foldl_cons, hrest]
      unfold pass
      split
      · rfl
      · split <;> rfl
  obtain ⟨index, line, column, hmoved⟩ := hfold (s.rest.take (s.rest.length - rest.length)) s
  refine ⟨index, line, column, ?_⟩
  unfold moveTo
  rw [hmoved]

/-- A word as it is written, as it stands or in double quotes. -/
def writtenWord (quoted : Bool) (w : List Char) : List Char :=
  if quoted then '"' :: (w ++ ['"']) else w

/-- The scanner after one token, where nothing but the end of the text follows. -/
def HasLast (s s' : Scanner) (token : Token) : Prop :=
  ∃ rest index line column allowed, IsLast rest ∧ s' =
    { s with
      rest := rest, index := index, line := line, column := column, tokens := [token], keyAllowed := allowed }

theorem token_value (ht : t.IsClear) (hkey : t.keyAllowed = false) (hindent : 0 ≤ t.indent) (hw : IsWord w)
    (htail : IsLast tail) {quoted : Bool} (hrest : t.rest = writtenWord quoted w ++ tail)
    (hcs : t.rest = c :: cs) (hrounds : t.rounds = n + 1) :
    ∃ s', t.token c cs = .ok s' ∧ t.HasLast s' (.scalar (w.map .char) !quoted) := by
  have hsaved : t.saveCandidate = .ok t := by
    unfold saveCandidate
    rw [hkey]
    rfl
  cases quoted with
  | false =>
    obtain ⟨d, ds, rfl, hd⟩ := hw.head
    obtain ⟨rfl, -⟩ := List.cons.inj (hcs.symm.trans hrest)
    have hscalar : plainScalar t.inFlow (t.indent + 1) t.rounds t.rest = ⟨c :: ds, !tail.isEmpty, []⟩ := by
      rw [inFlow_eq_false ht.flow, hrounds, hrest]
      exact plainScalar_last hw htail (by omega) n
    obtain ⟨index, line, column, hmoved⟩ := t.moveTo_frame []
    refine ⟨_, (token_word hd t cs).trans (plainToken_eq hsaved hscalar),
      [], index, line, column, !tail.isEmpty, .inl rfl, ?_⟩
    show ({ (t.moveTo []).push _ with keyAllowed := _ } : Scanner) = _
    rw [hmoved]
    simp [push, ht.tokens]
  | true =>
    have hquoted : c = '"' ∧ cs = w ++ '"' :: tail := by
      have heq := hcs.symm.trans hrest
      simpa [writtenWord] using heq
    obtain ⟨rfl, rfl⟩ := hquoted
    obtain ⟨index, line, column, hmoved⟩ := t.moveTo_frame tail
    refine ⟨t.finishToken (.scalar (w.map .char) false) tail, ?_,
      tail, index, line, column, false, htail, ?_⟩
    · have htoken : t.token '"' (w ++ '"' :: tail) = t.quotedToken true (w ++ '"' :: tail) := by
        simp [token, isSeparatedBy_of_ne]
      rw [htoken, quotedToken, hsaved, quotedScalar_word hw tail]
      rfl
    · unfold finishToken
      rw [hmoved]
      simp [push, ht.tokens]

/-- A value in the line of its key is the last token of the text. -/
theorem settle_value (hs : s.IsClear) (hkey : s.keyAllowed = false) (hindent : 0 ≤ s.indent)
    (hcolumn : s.indent ≤ s.column) (hw : IsWord w) (htail : IsLast tail) {quoted : Bool}
    (hrest : s.rest = ' ' :: (writtenWord quoted w ++ tail)) (hrounds : s.rounds = n + 1) :
    ∃ s', s.settle = .ok s' ∧ s.HasLast s' (.scalar (w.map .char) !quoted) := by
  obtain ⟨c, cs, hcs, hc⟩ : ∃ c cs, writtenWord quoted w ++ tail = c :: cs ∧ BeginsToken c := by
    cases quoted with
    | false =>
      obtain ⟨c, cs, rfl, hc⟩ := hw.head
      exact ⟨c, cs ++ tail, rfl, beginsToken_of_isWordChar (isWordChar_of_isAlphanum hc)⟩
    | true => exact ⟨'"', w ++ ['"'] ++ tail, rfl, by decide, by decide, by decide, by decide⟩
  have hnext : s.toNextToken = s.behind [' '] (c :: cs) :=
    toNextToken_spaces (k := 1) (by rw [hrest, hcs]; rfl) hc hrounds
  have hclear := hs.behind [' '] (c :: cs)
  obtain ⟨s', htoken, hlast⟩ := token_value hclear hkey hindent hw htail hcs.symm rfl hrounds
  refine ⟨s', ?_, ?_⟩
  · have hfresh : ∀ d ∈ (s.behind [' '] (c :: cs)).candidates,
        (s.behind [' '] (c :: cs)).isFresh d.2 = true := by simp [hclear.candidates]
    have hplace : s.indent ≤ ((s.column + 1 : Nat) : Int) := by omega
    unfold settle
    rw [hrounds, settleIn_empty hs.tokens hs.finished, fetch_of_fault hs.fault,
      next_of_token hnext rfl hfresh hs.flow hplace, htoken]
    obtain ⟨rest, index, line, column, allowed, -, rfl⟩ := hlast
    apply settleIn_settled
    · exact List.cons_ne_nil _ _
    · exact hs.candidates
  · obtain ⟨rest, index, line, column, allowed, hend, rfl⟩ := hlast
    exact ⟨rest, index, line, column, allowed, hend, rfl⟩

/-! ## The end of the text -/

theorem endBlocks_all {columns : List Int} {indent : Int} (hindent : 0 ≤ indent)
    (hcolumns : ∀ c ∈ columns, 0 ≤ c) (s : Scanner) :
    s.endBlocks (-1) indent (columns ++ [-1]) =
      { s with
        tokens := s.tokens ++ List.replicate (columns.length + 1) .blockEnd, indent := -1, outer := [] } := by
  induction columns generalizing s indent with
  | nil =>
    rw [List.nil_append, endBlocks, if_pos (by omega)]
    rfl
  | cons column columns ih =>
    obtain ⟨hcolumn, hcolumns⟩ := List.forall_mem_cons.mp hcolumns
    rw [List.cons_append, endBlocks, if_pos (by omega), ih hcolumn hcolumns]
    simp [push, List.replicate_succ]

/-- The scanner at the end of the text, where `n` mappings have ended. -/
def ended (t : Scanner) (n : Nat) : Scanner :=
  { t with
    tokens := List.replicate n .blockEnd, indent := -1, outer := [], keyAllowed := false, finished := true }

theorem finish_ok (ht : t.IsClear) {columns : List Int} (hindent : 0 ≤ t.indent)
    (hcolumns : ∀ c ∈ columns, 0 ≤ c) (houter : t.outer = columns ++ [-1]) :
    t.finish = .ok (t.ended (columns.length + 1)) := by
  have hunwind : t.unwind (-1) = { t with
      tokens := List.replicate (columns.length + 1) .blockEnd, indent := -1, outer := [] } := by
    unfold unwind
    rw [inFlow_eq_false ht.flow, houter]
    show t.endBlocks (-1) t.indent (columns ++ [-1]) = _
    rw [endBlocks_all hindent hcolumns t, ht.tokens]
    rfl
  unfold finish dropCandidate
  rw [hunwind]
  simp [ht.candidates, bind, Except.bind, pure, Except.pure, ended]

/-- At the end of the text all mappings end, and no token comes after that. -/
theorem settle_last (hs : s.IsClear) (hlast : IsLast s.rest) {columns : List Int} (hindent : 0 ≤ s.indent)
    (hcolumns : ∀ c ∈ columns, 0 ≤ c) (houter : s.outer = columns ++ [-1]) (hrounds : s.rounds = n + 2) :
    ∃ s', s.settle = .ok s' ∧ s'.tokens = List.replicate (columns.length + 1) .blockEnd ∧
      s'.candidates = [] ∧ s'.finished = true := by
  obtain ⟨t, hnext, hclear, hrest, hindent', houter'⟩ :
      ∃ t, s.toNextToken = t ∧ t.IsClear ∧ t.rest = [] ∧ t.indent = s.indent ∧ t.outer = s.outer := by
    rcases toNextToken_last rfl hlast hs.flow hrounds with ⟨hsame, hnil⟩ | hline
    · exact ⟨s, hsame, hs, hnil, rfl, rfl⟩
    · exact ⟨_, hline, hs.inNextLine 0 [], rfl, rfl, rfl⟩
  have hfresh : ∀ c ∈ t.candidates, t.isFresh c.2 = true := by simp [hclear.candidates]
  have hfinish := finish_ok hclear (by omega) hcolumns (houter'.trans houter)
  refine ⟨t.ended (columns.length + 1), ?_, rfl, hclear.candidates, rfl⟩
  unfold settle
  rw [hrounds, settleIn_empty hs.tokens hs.finished, fetch_of_fault hs.fault]
  have hscanned : s.next = t.finish := by
    unfold next
    rw [hnext]
    simp only [hrest, hclear.fault]
    rw [dropStale_of_isFresh hfresh]
    rfl
  rw [hscanned, hfinish]
  exact settleIn_finished (s := t.ended (columns.length + 1)) rfl (n + 1)

end ToolchainChoice.Yaml.Scanner
