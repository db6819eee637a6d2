import ToolchainChoice.Proofs.Yaml.Lines
import ToolchainChoice.Yaml.Composition

/-!
# Nodes from tokens

What a reader makes of a text depends on the tokens that the scanner gives for it and on nothing else of the
text. A reader is therefore described by the tokens that it takes and by the nodes that it puts into the
graph for them. Two lines with a key each, the second one further to the right and with a word behind it, are
a mapping in a mapping.
-/
namespace ToolchainChoice.Yaml

namespace Scanner

variable {s t : Scanner} {w more tail outer inner : List Char} {k n : Nat} {token : Token} {ts : List Token}

/-! ## Sequences of tokens -/

/-- The first token is known, and it is this one; the others are those behind it. -/
def Stands (token : Token) (rest : Scanner → Prop) (s : Scanner) : Prop :=
  s.settle = .ok s ∧ s.tokens.head? = some token ∧ rest s.take

/-- The tokens that the scanner gives from here to the end of the text. -/
def Yields : List Token → Scanner → Prop
  | [], s => ∃ s', s.settle = .ok s' ∧ s'.settle = .ok s' ∧ s'.tokens = []
  | token :: ts, s => ∃ s', s.settle = .ok s' ∧ s'.Stands token (Yields ts)

theorem Stands.yields (h : s.Stands token (Yields ts)) : s.Yields (token :: ts) := ⟨s, h.1, h⟩

/-- The scanner when all tokens that it has have been taken. -/
def drain (s : Scanner) : Scanner := { s with tokens := [], taken := s.taken + s.tokens.length }

theorem yields_drain (hcandidates : s.candidates = []) (h : s.drain.Yields ts) :
    s.Yields (s.tokens ++ ts) := by
  obtain ⟨tokens, htokens⟩ : ∃ tokens, s.tokens = tokens := ⟨_, rfl⟩
  rw [htokens]
  induction tokens generalizing s with
  | nil =>
    have hsame : s.drain = s := by
      unfold drain
      rw [htokens]
      show { s with tokens := [] } = s
      rw [← htokens]
    rwa [hsame] at h
  | cons token tokens ih =>
    have hsettle : s.settle = .ok s := settleIn_settled (by simp [htokens]) hcandidates s.rounds
    have hdrain : s.take.drain = s.drain := by
      simp [drain, take, htokens, Nat.add_assoc, Nat.add_comm 1]
    refine Stands.yields ⟨hsettle, by rw [htokens]; rfl, ih (s := s.take) hcandidates ?_ ?_⟩
    · rw [hdrain]
      exact h
    · simp [take, htokens]

/-- The scanner goes on with the tokens that it has as soon as they are settled. -/
theorem yields_of_settle {t : Scanner} (hsettle : s.settle = .ok t) (htokens : t.tokens ≠ [])
    (hcandidates : t.candidates = []) (h : t.drain.Yields ts) : s.Yields (t.tokens ++ ts) := by
  have hyields := yields_drain hcandidates h
  have hsettled : t.settle = .ok t := settleIn_settled htokens hcandidates t.rounds
  cases heq : t.tokens with
  | nil => contradiction
  | cons token tokens =>
    rw [heq] at hyields
    obtain ⟨t', ht', hstands⟩ := hyields
    obtain rfl := Except.ok.inj (hsettled.symm.trans ht')
    exact ⟨t, hsettle, hstands⟩

theorem yields_nil_of_finished (htokens : s.tokens = []) (hfinished : s.finished = true) : s.Yields [] := by
  have hsettle : s.settle = .ok s := settleIn_finished hfinished s.rounds
  exact ⟨s, hsettle, hsettle, htokens⟩

/-! ## Two lines -/

/-- The tokens at the start of a mapping. -/
def keyTokens (w : List Char) : List Token :=
  [.blockMapping, .key, .scalar (w.map .char) true, .value]

theorem yields_key (hs : s.IsClear) (hnext : s.toNextToken = t) (h : t.BeginsKey w more)
    (hrounds : s.rounds = n + 2) (ht : t.rounds = s.rounds) (hrest : (t.behindKey w more).drain.Yields ts) :
    s.Yields (keyTokens w ++ ts) :=
  yields_of_settle (settle_key hs hnext h hrounds ht) (List.cons_ne_nil _ _) h.candidates hrest

/-- A key at the start of the text. -/
theorem yields_start (hs : s.IsClear) (hallowed : s.keyAllowed = true) (hindent : s.indent < s.column)
    (hw : IsWord w) (hshort : w.length ≤ keyLimit) (hblank : endsToken more = true)
    (hrest : s.rest = w ++ ':' :: more) (hrounds : s.rounds = n + 2)
    (h : (s.behindKey w more).drain.Yields ts) : s.Yields (keyTokens w ++ ts) := by
  have hnext : s.toNextToken = s := by
    obtain ⟨c, cs, rfl, hc⟩ := hw.head
    exact toNextToken_token hrest (beginsToken_of_isWordChar (isWordChar_of_isAlphanum hc)) hrounds
  exact yields_key hs hnext ⟨hs, hallowed, hindent, hw, hshort, hblank, hrest⟩ hrounds rfl h

/-- A key in the next line, further to the right than the mapping around it. -/
theorem yields_line (hs : s.IsClear) (hindent : s.indent < k) (hw : IsWord w) (hshort : w.length ≤ keyLimit)
    (hblank : endsToken more = true) (hrest : s.rest = '\n' :: (List.replicate k ' ' ++ (w ++ ':' :: more)))
    (hrounds : s.rounds = n + 2)
    (h : ((s.inNextLine k (w ++ ':' :: more)).behindKey w more).drain.Yields ts) :
    s.Yields (keyTokens w ++ ts) := by
  have hnext : s.toNextToken = s.inNextLine k (w ++ ':' :: more) := by
    obtain ⟨c, cs, rfl, hc⟩ := hw.head
    exact toNextToken_line hrest (beginsToken_of_isWordChar (isWordChar_of_isAlphanum hc)) hs.flow hrounds
  exact yields_key hs hnext ⟨hs.inNextLine k _, rfl, hindent, hw, hshort, hblank, rfl⟩ hrounds rfl h

/-- At the end of the text the open mappings end, one after the other. -/
theorem yields_last (hs : s.IsClear) (hlast : IsLast s.rest) {columns : List Int} (hindent : 0 ≤ s.indent)
    (hcolumns : ∀ c ∈ columns, 0 ≤ c) (houter : s.outer = columns ++ [-1]) (hrounds : s.rounds = n + 2) :
    s.Yields (List.replicate (columns.length + 1) .blockEnd) := by
  obtain ⟨t, hsettle, htokens, hcandidates, hfinished⟩ :=
    settle_last hs hlast hindent hcolumns houter hrounds
  have hyields := yields_of_settle hsettle (by simp [htokens, List.replicate_succ]) hcandidates
    (yields_nil_of_finished (s := t.drain) rfl hfinished)
  rwa [htokens, List.append_nil] at hyields

theorem yields_value (hs : s.IsClear) (hkey : s.keyAllowed = false) (hindent : 0 ≤ s.indent)
    (hcolumn : s.indent ≤ s.column) (hw : IsWord w) (htail : IsLast tail) {quoted : Bool}
    (hrest : s.rest = ' ' :: (writtenWord quoted w ++ tail)) {columns : List Int}
    (hcolumns : ∀ c ∈ columns, 0 ≤ c) (houter : s.outer = columns ++ [-1]) (hrounds : s.rounds = n + 2) :
    s.Yields (.scalar (w.map .char) (!quoted) :: List.replicate (columns.length + 1) .blockEnd) := by
  obtain ⟨t, hsettle, rest, index, line, column, allowed, hlast, rfl⟩ :=
    settle_value hs hkey hindent hcolumn hw htail hrest hrounds
  refine yields_of_settle hsettle (List.cons_ne_nil _ _) hs.candidates ?_
  apply yields_last
  · exact ⟨rfl, hs.candidates, hs.flow, hs.fault, hs.finished⟩
  · exact hlast
  · exact hindent
  · exact hcolumns
  · exact houter
  · exact hrounds

/-- Two lines with a key each, and something behind the second one. -/
def twoLines (outer inner written : List Char) (k : Nat) : List Char :=
  outer ++ ':' :: '\n' :: (List.replicate k ' ' ++ (inner ++ ':' :: ' ' :: written))

/-- The tokens of two lines with a scalar behind the second key. -/
def twoLineTokens (outer inner scalar : List Char) (plain : Bool) : List Token :=
  keyTokens outer ++ (keyTokens inner ++ [.scalar (scalar.map .char) plain, .blockEnd, .blockEnd])

theorem yields_twoLines (houter : IsWord outer) (hinner : IsWord inner) (hw : IsWord w)
    (hshort : outer.length ≤ keyLimit ∧ inner.length ≤ keyLimit) (hk : 0 < k) (htail : IsLast tail)
    (quoted : Bool) :
    (ofSource ⟨twoLines outer inner (writtenWord quoted w ++ tail) k, none⟩).Yields
      (twoLineTokens outer inner w (!quoted)) := by
  have hstart : (-1 : Int) < (0 : Nat) := by omega
  refine yields_start ⟨rfl, rfl, rfl, rfl, rfl⟩ rfl hstart houter hshort.1 rfl rfl rfl ?_
  have hline : (0 : Int) < k := by omega
  refine yields_line ⟨rfl, rfl, rfl, rfl, rfl⟩ hline hinner hshort.2 rfl rfl rfl ?_
  have hcolumn : (k : Int) ≤ ((k + (inner ++ [':']).length : Nat) : Int) := by omega
  have hcolumns : ∀ c ∈ [(0 : Int)], 0 ≤ c := by decide
  exact yields_value ⟨rfl, rfl, rfl, rfl, rfl⟩ rfl (Int.natCast_nonneg k) hcolumn hw htail rfl hcolumns rfl
    rfl

end Scanner

open Scanner (Yields Stands)
open Reader

variable {α β : Type} {ts ts' : List Token} {token : Token} {P Q R : Scanner → Prop} {g g' g'' : Graph}
  {handles : Handles} {text : List Text.Symbol} {plain : Bool} {place : Place} {n levels : Nat}

/-! ## Steps of reading -/

/-- From scanners with `P` and from the graph `g`, the step comes to `a`, a scanner with `Q` and the graph
`g'`. -/
def Reads (m : Reader α) (P Q : Scanner → Prop) (g g' : Graph) (a : α) : Prop :=
  ∀ r : Reading, P r.scanner → r.graph = g → ∃ r', m r = .ok (a, r') ∧ Q r'.scanner ∧ r'.graph = g'

theorem reads_pure (a : α) : Reads (pure a) P P g g a := fun r hr hg => ⟨r, rfl, hr, hg⟩

theorem Reads.bind {m : Reader α} {f : α → Reader β} {a : α} {b : β} (hm : Reads m P Q g g' a)
    (hf : Reads (f a) Q R g' g'' b) : Reads (m >>= f) P R g g'' b := by
  intro r hr hg
  obtain ⟨r', hm', hr', hg'⟩ := hm r hr hg
  obtain ⟨r'', hf', hr'', hg''⟩ := hf r' hr' hg'
  refine ⟨r'', ?_, hr'', hg''⟩
  show (m r >>= fun p => f p.1 p.2) = _
  rw [hm']
  exact hf'

/-- What is read where a token is still to be settled is read where it stands. -/
theorem Reads.of_yields {m : Reader α} {a : α} (hm : Reads m (Yields (token :: ts)) Q g g' a) :
    Reads m (Stands token (Yields ts)) Q g g' a :=
  fun r hr hg => hm r hr.yields hg

theorem peek_eq {r : Reading} {s : Scanner} (h : r.scanner.settle = .ok s) :
    peek r = .ok (s.tokens.head?, { r with scanner := s }) := by
  show ((liftM r.scanner.settle : Reader Scanner) >>= fun s => do
    set { r with scanner := s }
    return s.tokens.head?) r = _
  rw [h]
  rfl

theorem reads_peek : Reads peek (Yields (token :: ts)) (Stands token (Yields ts)) g g (some token) := by
  intro r hr hg
  obtain ⟨s, hsettle, hstands⟩ := hr
  exact ⟨{ r with scanner := s }, hstands.2.1 ▸ peek_eq hsettle, hstands, hg⟩

theorem reads_peek_end : Reads peek (Yields []) (Yields []) g g none := by
  intro r hr hg
  obtain ⟨s, hsettle, hsame, hnil⟩ := hr
  have hhead : s.tokens.head? = none := by
    rw [hnil]
    rfl
  exact ⟨{ r with scanner := s }, hhead ▸ peek_eq hsettle, ⟨s, hsame, hsame, hnil⟩, hg⟩

theorem reads_drop (token : Token) : Reads drop (Stands token P) P g g () := fun r hr hg =>
  ⟨{ r with scanner := r.scanner.take }, rfl, hr.2.2, hg⟩

theorem reads_addNode (n : Node) : Reads (addNode n) P P g (g.add n).2 g.nodes.size := by
  rintro r hr rfl
  exact ⟨{ r with graph := (r.graph.add n).2 }, rfl, hr, rfl⟩

theorem reads_putNode (id : NodeId) (n : Node) : Reads (putNode id n) P P g (g.put id n) () := by
  rintro r hr rfl
  exact ⟨{ r with graph := r.graph.put id n }, rfl, hr, rfl⟩

/-! ## Nodes -/

/-- The token begins the content of a node. -/
def BeginsContent (token : Token) : Prop :=
  (∀ name, token ≠ .alias name) ∧ (∀ name, token ≠ .anchor name) ∧ ∀ t, token ≠ .tag t

theorem reads_properties (h : BeginsContent token) :
    Reads (properties handles) (Stands token (Yields ts)) (Stands token (Yields ts)) g g {} := by
  refine reads_peek.of_yields.bind ?_
  split
  · rename_i heq
    exact absurd (Option.some.inj heq) (h.2.1 _)
  · rename_i heq
    exact absurd (Option.some.inj heq) (h.2.2 _)
  · exact reads_pure _

/-- The node of a scalar without properties. -/
def scalarNode (text : List Text.Symbol) (plain : Bool) : Node :=
  .scalar (({} : Properties).scalarTag text plain) text

theorem reads_scalar : Reads (readNode handles (n + 1) (levels + 1) place) (Yields (.scalar text plain :: ts))
    (Yields ts) g (g.add (scalarNode text plain)).2 g.nodes.size := by
  have hcontent : BeginsContent (.scalar text plain) := ⟨nofun, nofun, nofun⟩
  rw [readNode]
  refine reads_peek.bind ((reads_properties hcontent).bind (reads_peek.of_yields.bind ?_))
  refine (reads_drop _).bind ((reads_pure ()).bind ?_)
  exact (reads_addNode _).bind ((reads_pure ()).bind (reads_pure _))

theorem reads_blockEnd :
    Reads (readEntries handles (n + 1) levels) (Yields (.blockEnd :: ts)) (Yields ts) g g [] := by
  rw [readEntries]
  exact reads_peek.bind ((reads_drop _).bind (reads_pure _))

/-- The value of an entry, if it is written. -/
theorem reads_value {id : NodeId} (hpart : lacksBlockPart (some token) = false)
    (hvalue : Reads (readNode handles n levels .part) (Yields (token :: ts)) Q g g' id) :
    Reads (readValue handles (n + 1) levels) (Yields (.value :: token :: ts)) Q g g' id := by
  rw [readValue]
  refine reads_peek.bind ((reads_drop _).bind (reads_peek.bind ?_))
  rw [hpart]
  exact hvalue.of_yields

/-- An entry of a mapping whose key is a scalar, and the end of the mapping. -/
theorem reads_entries {id : NodeId} (hpart : lacksBlockPart (some token) = false)
    (hvalue : Reads (readNode handles n (levels + 1) .part) (Yields (token :: ts)) (Yields (.blockEnd :: ts'))
      (g.add (scalarNode text plain)).2 g' id) :
    Reads (readEntries handles (n + 2) (levels + 1))
      (Yields (.key :: .scalar text plain :: .value :: token :: ts)) (Yields ts') g g'
      [(g.nodes.size, id)] := by
  rw [readEntries]
  refine reads_peek.bind ((reads_drop _).bind (reads_peek.bind ?_))
  refine reads_scalar.of_yields.bind ((reads_value hpart hvalue).bind ?_)
  exact reads_blockEnd.bind (reads_pure _)

theorem reads_mappingWith {m : Reader (List (NodeId × NodeId))} {entries : List (NodeId × NodeId)}
    (hm : Reads m P Q (g.add (.mapping .mapping [])).2 g' entries) :
    Reads (mappingWith {} m) P Q g (g'.put g.nodes.size (.mapping .mapping entries)) g.nodes.size :=
  (reads_addNode _).bind ((reads_pure ()).bind (hm.bind ((reads_putNode _ _).bind (reads_pure _))))

/-- A mapping with one entry, whose key is a scalar. -/
theorem reads_mapping {id : NodeId} (hplace : place ≠ .flow) (hpart : lacksBlockPart (some token) = false)
    (hvalue : Reads (readNode handles n (levels + 1) .part) (Yields (token :: ts)) (Yields (.blockEnd :: ts'))
      ((g.add (.mapping .mapping [])).2.add (scalarNode text plain)).2 g' id) :
    Reads (readNode handles (n + 3) (levels + 2) place)
      (Yields (.blockMapping :: .key :: .scalar text plain :: .value :: token :: ts)) (Yields ts') g
      (g'.put g.nodes.size (.mapping .mapping [(g.nodes.size + 1, id)])) g.nodes.size := by
  have hcontent : BeginsContent .blockMapping := ⟨nofun, nofun, nofun⟩
  have hsize : (g.add (.mapping .mapping [])).2.nodes.size = g.nodes.size + 1 := Array.size_push _
  have hentries := reads_entries hpart hvalue
  rw [hsize] at hentries
  have hmapping := reads_mappingWith
    ((reads_drop .blockMapping).bind (f := fun _ => readEntries handles (n + 2) (levels + 1)) hentries)
  rw [readNode]
  refine reads_peek.bind ((reads_properties hcontent).bind (reads_peek.of_yields.bind ?_))
  cases place with
  | flow => contradiction
  | block => exact (reads_pure ()).bind hmapping
  | part => exact (reads_pure ()).bind hmapping

/-! ## Documents -/

theorem reads_end : Reads (readEnd n) (Yields []) (Yields []) g g () := by
  have hends : Reads (dropEnds n) (Yields []) (Yields []) g g () := by
    cases n with
    | zero => exact reads_pure _
    | succ n => exact reads_peek_end.bind (reads_pure _)
  exact hends.bind (reads_peek_end.bind (reads_pure _))

theorem reads_document {id : NodeId}
    (hroot : Reads (readNode standardHandles n (nestingDepth + 1) .block) (Yields (.blockMapping :: ts))
      (Yields []) g g' id) :
    Reads (readDocument n) (Yields (.blockMapping :: ts)) (Yields []) g g' (some id) :=
  reads_peek.bind (hroot.of_yields.bind (reads_end.bind (reads_pure _)))

/-- The graph of two lines: a mapping whose only value is another one. -/
def twoLineGraph (outer inner scalar : List Char) (plain : Bool) : Graph where
  nodes := #[.mapping .mapping [(1, 2)], scalarNode (outer.map .char) true,
    .mapping .mapping [(3, 4)], scalarNode (inner.map .char) true, scalarNode (scalar.map .char) plain]

theorem reads_twoLines (outer inner scalar : List Char) (plain : Bool) (n : Nat) :
    Reads (readDocument (n + 7)) (Yields (Scanner.twoLineTokens outer inner scalar plain)) (Yields [])
      {} (twoLineGraph outer inner scalar plain) (some 0) := by
  have hblock : Place.block ≠ .flow := by decide
  have hpart : Place.part ≠ .flow := by decide
  have hinner : Reads (readNode standardHandles (n + 4) (488 + 2) .part)
      (Yields (Scanner.keyTokens inner ++ [.scalar (scalar.map .char) plain, .blockEnd, .blockEnd]))
      (Yields [.blockEnd])
      ⟨#[.mapping .mapping [], scalarNode (outer.map .char) true]⟩ _ _ :=
    reads_mapping hpart rfl reads_scalar
  have houter : Reads (readNode standardHandles (n + 7) (489 + 2) .block)
      (Yields (Scanner.twoLineTokens outer inner scalar plain)) (Yields []) {} _ _ :=
    reads_mapping hblock rfl hinner
  exact reads_document houter

/-- What two lines are composed to. -/
theorem compose_twoLines {source : Source} {outer inner scalar : List Char}
    (h : (Scanner.ofSource source).Yields (Scanner.twoLineTokens outer inner scalar plain)) :
    compose source = .ok (some 0, twoLineGraph outer inner scalar plain) := by
  obtain ⟨r, hread, -, hgraph⟩ := reads_twoLines outer inner scalar plain
    (20 * source.chars.length + 93) { scanner := .ofSource source } h rfl
  show (readDocument (roundsFor source) _ >>= fun p => Except.ok (p.1, p.2.graph)) = _
  rw [roundsFor, hread]
  show Except.ok (some 0, r.graph) = _
  rw [hgraph]

end ToolchainChoice.Yaml
