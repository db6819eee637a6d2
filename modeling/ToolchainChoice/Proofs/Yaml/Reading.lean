import ToolchainChoice.Proofs.Yaml.Scanning
import ToolchainChoice.Yaml.Meaning

/-!
# How reading a document ends

A document is read from its text in two steps. Composition asks the scanner for one token after another and
fails itself only for what is nested too deeply; what it keeps is that the fault behind the text is a regular
one. Construction gives the nodes their values, and fails for scalars of a form or a tag that promises a
value which does not exist. The failures of both are those of `IsReadingFailure`.
-/
namespace ToolchainChoice.Yaml

open Number (Binary64)

/-! ## Composition -/

namespace Reader

/-- The fault behind the text that is read is one that reading can end with. -/
def IsSound (r : Reading) : Prop := r.scanner.IsRegular

theorem peek_keeps : Keeps IsSound peek := by
  refine keeps_get_bind fun r hr => Ends.lift_bind (Scanner.settle_ends hr) fun s hs => ?_
  exact hs

theorem drop_keeps : Keeps IsSound drop := fun _ hr => hr

theorem addNode_keeps (n : Node) : Keeps IsSound (addNode n) := fun _ hr => hr

theorem putNode_keeps (id : NodeId) (n : Node) : Keeps IsSound (putNode id n) := fun _ hr => hr

theorem mark_keeps (anchor : Option String) (id : NodeId) : Keeps IsSound (mark anchor id) := by
  cases anchor with
  | none => exact keeps_pure
  | some name => exact fun _ hr => hr

theorem marked?_keeps (name : String) : Keeps IsSound (marked? name) := fun _ hr => hr

theorem emptyNode_keeps : Keeps IsSound emptyNode := addNode_keeps _

end Reader

open Reader

theorem tagName_ends (handles : Handles) (t : WrittenTag) : EndsSomehow (tagName handles t) := by
  unfold tagName
  split
  · exact endsSomehow_ok
  · split
    · exact endsSomehow_ok
    · exact ends_reject

theorem properties_keeps (handles : Handles) : Keeps IsSound (properties handles) := by
  unfold properties
  refine peek_keeps.bind fun first => ?_
  split
  · refine drop_keeps.bind fun _ => peek_keeps.bind fun second => ?_
    split
    · refine drop_keeps.bind fun _ => ?_
      exact (keeps_lift (tagName_ends handles _)).bind fun _ => keeps_pure
    · exact keeps_pure
  · refine drop_keeps.bind fun _ => peek_keeps.bind fun second => ?_
    split
    · refine drop_keeps.bind fun _ => ?_
      exact (keeps_lift (tagName_ends handles _)).bind fun _ => keeps_pure
    · exact (keeps_lift (tagName_ends handles _)).bind fun _ => keeps_pure
  · exact keeps_pure

theorem Properties.check_keeps (p : Properties) : Keeps IsSound p.check := by
  unfold Properties.check
  split
  · exact keeps_pure
  · refine (marked?_keeps _).bind fun found => keeps_ite (keeps_lift ends_reject) keeps_pure

theorem sequenceWith_keeps (p : Properties) {items : Reader (List NodeId)} (h : Keeps IsSound items) :
    Keeps IsSound (sequenceWith p items) :=
  (addNode_keeps _).bind fun id => (mark_keeps p.anchor id).bind fun _ => h.bind fun _ =>
    (putNode_keeps id _).bind fun _ => keeps_pure

theorem mappingWith_keeps (p : Properties) {entries : Reader (List (NodeId × NodeId))}
    (h : Keeps IsSound entries) : Keeps IsSound (mappingWith p entries) :=
  (addNode_keeps _).bind fun id => (mark_keeps p.anchor id).bind fun _ => h.bind fun _ =>
    (putNode_keeps id _).bind fun _ => keeps_pure

theorem scalarWith_keeps (p : Properties) (tag : Tag) (text : List Text.Symbol) :
    Keeps IsSound (scalarWith p tag text) :=
  (addNode_keeps _).bind fun id => (mark_keeps p.anchor id).bind fun _ => keeps_pure

/-- All readers of parts of the grammar, within a number of rounds. -/
structure ReadersKeep (handles : Handles) (rounds : Nat) : Prop where
  node (levels : Nat) (place : Place) : Keeps IsSound (readNode handles rounds levels place)
  items (levels : Nat) : Keeps IsSound (readItems handles rounds levels)
  plainItems (levels : Nat) : Keeps IsSound (readPlainItems handles rounds levels)
  entries (levels : Nat) : Keeps IsSound (readEntries handles rounds levels)
  value (levels : Nat) : Keeps IsSound (readValue handles rounds levels)
  flowValue (levels : Nat) (last : Token) : Keeps IsSound (readFlowValue handles rounds levels last)
  flowEntry (levels : Nat) (last : Token) : Keeps IsSound (readFlowEntry handles rounds levels last)
  flowItems (levels : Nat) (first : Bool) : Keeps IsSound (readFlowItems handles rounds levels first)
  flowEntries (levels : Nat) (first : Bool) :
    Keeps IsSound (readFlowEntries handles rounds levels first)

variable {handles : Handles} {rounds : Nat}

/-- A reader that has no rounds or no levels left. -/
theorem tooDeep_keeps {α : Type} : Keeps IsSound (liftM (failWith .tooDeep : Result α) : Reader α) :=
  keeps_lift (ends_failWith .tooDeep)

theorem readersKeep_zero (handles : Handles) : ReadersKeep handles 0 where
  node _ _ := by rw [readNode]; exact tooDeep_keeps
  items _ := by rw [readItems]; exact tooDeep_keeps
  plainItems _ := by rw [readPlainItems]; exact tooDeep_keeps
  entries _ := by rw [readEntries]; exact tooDeep_keeps
  value _ := by rw [readValue]; exact tooDeep_keeps
  flowValue _ _ := by rw [readFlowValue]; exact tooDeep_keeps
  flowEntry _ _ := by rw [readFlowEntry]; exact tooDeep_keeps
  flowItems _ _ := by rw [readFlowItems]; exact tooDeep_keeps
  flowEntries _ _ := by rw [readFlowEntries]; exact tooDeep_keeps

namespace ReadersKeep

theorem readNode_succ (h : ReadersKeep handles rounds) (levels : Nat) (place : Place) :
    Keeps IsSound (readNode handles (rounds + 1) levels place) := by
  cases levels with
  | zero =>
    rw [readNode]
    · exact tooDeep_keeps
    · exact Nat.succ_ne_zero rounds
  | succ levels =>
    rw [readNode]
    refine peek_keeps.bind fun first => ?_
    split
    · refine drop_keeps.bind fun _ => (marked?_keeps _).bind fun found => ?_
      split
      · exact keeps_pure
      · exact keeps_lift ends_reject
    · refine (properties_keeps handles).bind fun p => peek_keeps.bind fun next => ?_
      split
      · exact p.check_keeps.bind fun _ => sequenceWith_keeps p (h.plainItems levels)
      · exact drop_keeps.bind fun _ => p.check_keeps.bind fun _ => scalarWith_keeps p _ _
      · exact p.check_keeps.bind fun _ =>
          sequenceWith_keeps p (drop_keeps.bind fun _ => h.flowItems levels true)
      · exact p.check_keeps.bind fun _ =>
          mappingWith_keeps p (drop_keeps.bind fun _ => h.flowEntries levels true)
      · exact p.check_keeps.bind fun _ =>
          sequenceWith_keeps p (drop_keeps.bind fun _ => h.items levels)
      · exact p.check_keeps.bind fun _ =>
          sequenceWith_keeps p (drop_keeps.bind fun _ => h.items levels)
      · exact p.check_keeps.bind fun _ =>
          mappingWith_keeps p (drop_keeps.bind fun _ => h.entries levels)
      · exact p.check_keeps.bind fun _ =>
          mappingWith_keeps p (drop_keeps.bind fun _ => h.entries levels)
      · exact keeps_ite (p.check_keeps.bind fun _ => scalarWith_keeps p _ _) (keeps_lift ends_reject)

theorem readItems_succ (h : ReadersKeep handles rounds) (levels : Nat) :
    Keeps IsSound (readItems handles (rounds + 1) levels) := by
  rw [readItems]
  refine peek_keeps.bind fun first => ?_
  split
  · refine drop_keeps.bind fun _ => peek_keeps.bind fun next => ?_
    extract_lets last
    have hlast : ∀ item, Keeps IsSound (last item) := fun item =>
      (h.items levels).bind fun _ => keeps_pure
    exact keeps_ite (emptyNode_keeps.bind hlast) ((h.node levels .block).bind hlast)
  · exact drop_keeps.bind fun _ => keeps_pure
  · exact keeps_lift ends_reject

theorem readPlainItems_succ (h : ReadersKeep handles rounds) (levels : Nat) :
    Keeps IsSound (readPlainItems handles (rounds + 1) levels) := by
  rw [readPlainItems]
  refine peek_keeps.bind fun first => ?_
  split
  · refine drop_keeps.bind fun _ => peek_keeps.bind fun next => ?_
    extract_lets last
    have hlast : ∀ item, Keeps IsSound (last item) := fun item =>
      (h.plainItems levels).bind fun _ => keeps_pure
    exact keeps_ite (emptyNode_keeps.bind hlast) ((h.node levels .block).bind hlast)
  · exact keeps_pure

theorem readEntries_succ (h : ReadersKeep handles rounds) (levels : Nat) :
    Keeps IsSound (readEntries handles (rounds + 1) levels) := by
  rw [readEntries]
  refine peek_keeps.bind fun first => ?_
  split
  · refine drop_keeps.bind fun _ => peek_keeps.bind fun next => ?_
    extract_lets last
    have hlast : ∀ key, Keeps IsSound (last key) := fun key =>
      (h.value levels).bind fun _ => (h.entries levels).bind fun _ => keeps_pure
    exact keeps_ite (emptyNode_keeps.bind hlast) ((h.node levels .part).bind hlast)
  · exact drop_keeps.bind fun _ => keeps_pure
  · exact keeps_lift ends_reject

theorem readValue_succ (h : ReadersKeep handles rounds) (levels : Nat) :
    Keeps IsSound (readValue handles (rounds + 1) levels) := by
  rw [readValue]
  refine peek_keeps.bind fun first => ?_
  split
  · refine drop_keeps.bind fun _ => peek_keeps.bind fun next => ?_
    exact keeps_ite emptyNode_keeps (h.node levels .part)
  · exact emptyNode_keeps

theorem readFlowValue_succ (h : ReadersKeep handles rounds) (levels : Nat) (last : Token) :
    Keeps IsSound (readFlowValue handles (rounds + 1) levels last) := by
  rw [readFlowValue]
  refine peek_keeps.bind fun first => ?_
  split
  · refine drop_keeps.bind fun _ => peek_keeps.bind fun next => ?_
    exact keeps_ite emptyNode_keeps (h.node levels .flow)
  · exact emptyNode_keeps

theorem readFlowEntry_succ (h : ReadersKeep handles rounds) (levels : Nat) (last : Token) :
    Keeps IsSound (readFlowEntry handles (rounds + 1) levels last) := by
  rw [readFlowEntry]
  refine drop_keeps.bind fun _ => peek_keeps.bind fun next => ?_
  extract_lets ending
  have hending : ∀ key, Keeps IsSound (ending key) := fun key =>
    (h.flowValue levels last).bind fun _ => keeps_pure
  exact keeps_ite (emptyNode_keeps.bind hending) ((h.node levels .flow).bind hending)

theorem readFlowItems_succ (h : ReadersKeep handles rounds) (levels : Nat) (first : Bool) :
    Keeps IsSound (readFlowItems handles (rounds + 1) levels first) := by
  rw [readFlowItems]
  refine peek_keeps.bind fun next => ?_
  extract_lets afterComma
  have hafter : ∀ u, Keeps IsSound (afterComma u) := by
    intro u
    refine peek_keeps.bind fun next => ?_
    split
    · exact drop_keeps.bind fun _ => keeps_pure
    · refine Keeps.bind (mappingWith_keeps _ ?_) fun _ =>
        (h.flowItems levels false).bind fun _ => keeps_pure
      exact (h.flowEntry levels _).bind fun _ => keeps_pure
    · exact (h.node levels .flow).bind fun _ => (h.flowItems levels false).bind fun _ => keeps_pure
  refine keeps_ite (keeps_ite (drop_keeps.bind hafter) ?_) (hafter ())
  exact (keeps_lift ends_reject).bind hafter

theorem readFlowEntries_succ (h : ReadersKeep handles rounds) (levels : Nat) (first : Bool) :
    Keeps IsSound (readFlowEntries handles (rounds + 1) levels first) := by
  rw [readFlowEntries]
  refine peek_keeps.bind fun next => ?_
  extract_lets afterComma
  have hafter : ∀ u, Keeps IsSound (afterComma u) := by
    intro u
    refine peek_keeps.bind fun next => ?_
    split
    · exact drop_keeps.bind fun _ => keeps_pure
    · exact (h.flowEntry levels _).bind fun _ =>
        (h.flowEntries levels false).bind fun _ => keeps_pure
    · exact (h.node levels .flow).bind fun _ => emptyNode_keeps.bind fun _ =>
        (h.flowEntries levels false).bind fun _ => keeps_pure
  refine keeps_ite (keeps_ite (drop_keeps.bind hafter) ?_) (hafter ())
  exact (keeps_lift ends_reject).bind hafter

end ReadersKeep

/-- The induction is on the rounds, over all readers at once: each of them goes on with another one in a
round less. -/
theorem readersKeep (handles : Handles) (rounds : Nat) : ReadersKeep handles rounds := by
  induction rounds with
  | zero => exact readersKeep_zero handles
  | succ rounds ih =>
    exact ⟨ih.readNode_succ, ih.readItems_succ, ih.readPlainItems_succ, ih.readEntries_succ,
      ih.readValue_succ, ih.readFlowValue_succ, ih.readFlowEntry_succ, ih.readFlowItems_succ,
      ih.readFlowEntries_succ⟩

theorem readDirectives_keeps (rounds : Nat) (versioned : Bool) (defined : Handles) :
    Keeps IsSound (readDirectives rounds versioned defined) := by
  induction rounds generalizing versioned defined with
  | zero => exact keeps_pure
  | succ rounds ih =>
    rw [readDirectives]
    refine peek_keeps.bind fun next => ?_
    split
    · refine drop_keeps.bind fun _ => keeps_ite (keeps_lift ends_reject) ?_
      exact keeps_ite (keeps_lift ends_reject) (ih true defined)
    · exact drop_keeps.bind fun _ => keeps_ite (keeps_lift ends_reject) (ih versioned _)
    · exact drop_keeps.bind fun _ => ih versioned defined
    · exact keeps_pure

theorem dropEnds_keeps (rounds : Nat) : Keeps IsSound (dropEnds rounds) := by
  induction rounds with
  | zero => exact keeps_pure
  | succ rounds ih =>
    rw [dropEnds]
    exact peek_keeps.bind fun _ => keeps_ite (drop_keeps.bind fun _ => ih) keeps_pure

theorem readEnd_keeps (rounds : Nat) : Keeps IsSound (readEnd rounds) := by
  unfold readEnd
  refine (dropEnds_keeps rounds).bind fun _ => peek_keeps.bind fun next => keeps_ite ?_ keeps_pure
  exact (readDirectives_keeps rounds false []).bind fun _ => peek_keeps.bind fun _ =>
    keeps_lift ends_reject

theorem readDocument_keeps (rounds : Nat) : Keeps IsSound (readDocument rounds) := by
  have hnode : ∀ handles, Keeps IsSound (readNode handles rounds (nestingDepth + 1) .block) :=
    fun handles => (readersKeep handles rounds).node _ _
  have hlast : ∀ root : NodeId, Keeps IsSound do
      readEnd rounds
      return some root := fun _ => (readEnd_keeps rounds).bind fun _ => keeps_pure
  unfold readDocument
  refine peek_keeps.bind fun first => ?_
  split
  case h_1 => exact keeps_pure
  case h_2 | h_3 =>
    refine (readDirectives_keeps rounds false []).bind fun defined => peek_keeps.bind fun next => ?_
    refine keeps_ite (drop_keeps.bind fun _ => peek_keeps.bind fun content => ?_) (keeps_lift ends_reject)
    exact keeps_ite (emptyNode_keeps.bind hlast) ((hnode _).bind hlast)
  case h_4 => exact (hnode standardHandles).bind hlast

theorem compose_ends (t : Files.PartialText) : EndsSomehow (compose (.ofParts t)) := by
  unfold compose
  have hstart : IsSound { scanner := .ofSource (.ofParts t) } := Scanner.isRegular_ofParts t
  exact (readDocument_keeps _ _ hstart).bind fun _ _ => endsSomehow_ok

/-! ## Scalars -/

theorem integerIn_ends (base : Nat) (cs : List Char) : EndsSomehow (integerIn base cs) := by
  unfold integerIn
  cases Number.splitSign (numberText cs) with
  | mk negative cs =>
    refine ends_ite (ends_failWith .notANumber) ?_
    split
    · exact ends_failWith .notANumber
    · exact ends_ite endsSomehow_ok (ends_failWith .numberTooLong)

theorem intValue_ends (cs : List Char) : EndsSomehow (intValue cs) := by
  unfold intValue
  cases Number.splitSign (withoutUnderscores cs) with
  | mk negative cs =>
    dsimp only
    split
    · exact ends_failWith .emptyNumber
    · exact endsSomehow_ok
    · exact endsSomehow_map (integerIn_ends 2 _)
    · exact endsSomehow_map (integerIn_ends 16 _)
    · exact endsSomehow_map (integerIn_ends 8 _)
    · refine ends_ite (endsSomehow_map ?_) (endsSomehow_map (integerIn_ends 10 _))
      exact endsSomehow_mapM (integerIn_ends 10) _

theorem decimalValue_ends (cs : List Char) : EndsSomehow (decimalValue cs) := by
  unfold decimalValue
  cases Number.splitSign (numberText cs) with
  | mk negative cs =>
    refine ends_ite endsSomehow_ok (ends_ite endsSomehow_ok ?_)
    split
    · exact endsSomehow_ok
    · exact ends_failWith .notANumber

theorem sexagesimalFloat_ends (base : Nat) (sum : Binary64) (parts : List Binary64) :
    EndsSomehow (sexagesimalFloat base sum parts) := by
  induction parts generalizing base sum with
  | nil => exact endsSomehow_ok
  | cons part parts ih =>
    rw [sexagesimalFloat]
    exact ends_ite (ih _ _) (ends_failWith .numberTooLarge)

theorem floatValue_ends (which : Nat) (cs : List Char) : EndsSomehow (floatValue which cs) := by
  unfold floatValue
  cases Number.splitSign (toLower (withoutUnderscores cs)) with
  | mk negative rest =>
    refine ends_ite (ends_failWith .emptyNumber) (ends_ite endsSomehow_ok (ends_ite endsSomehow_ok ?_))
    refine ends_ite ?_ (endsSomehow_map (decimalValue_ends _))
    refine endsSomehow_bind (endsSomehow_mapM decimalValue_ends _) fun parts => ?_
    exact endsSomehow_bind (sexagesimalFloat_ends 1 _ _) fun _ => endsSomehow_ok

theorem boolValue_ends (cs : List Char) : EndsSomehow (boolValue cs) :=
  ends_ite endsSomehow_ok (ends_ite endsSomehow_ok (ends_failWith .notATruthValue))

theorem stampValue_ends (cs : List Char) : EndsSomehow (stampValue cs) := by
  unfold stampValue
  split
  · exact ends_failWith .notATimeStamp
  · extract_lets value?
    clear_value value?
    cases value? with
    | some v => exact endsSomehow_ok
    | none => exact ends_failWith .noSuchMoment

theorem binaryValue_ends (cs : List Char) : EndsSomehow (binaryValue cs) := by
  refine ends_ite ?_ ends_reject
  split
  · exact endsSomehow_ok
  · exact ends_reject

theorem scalarValue_ends (which : Nat) (tag : Tag) (text : List Text.Symbol) :
    EndsSomehow (scalarValue which tag text) := by
  unfold scalarValue
  extract_lets cs
  split
  · exact endsSomehow_ok
  · exact endsSomehow_map (boolValue_ends cs)
  · exact endsSomehow_map (intValue_ends cs)
  · exact floatValue_ends which cs
  · exact binaryValue_ends cs
  · exact stampValue_ends cs
  · exact endsSomehow_ok
  · exact ends_reject

/-! ## Merging -/

namespace Graph

theorem flattenAll_ends {flatten : NodeId → Graph → Result Graph}
    (h : ∀ id g, EndsSomehow (flatten id g)) (items : List NodeId) (g : Graph) :
    EndsSomehow (flattenAll flatten items g) := by
  refine endsSomehow_foldlM (fun (found, g) item => ?_) _ items
  dsimp only
  split
  · exact endsSomehow_bind (h item g) fun _ => endsSomehow_ok
  · exact ends_reject

theorem takenFrom_ends {flatten : NodeId → Graph → Result Graph}
    (h : ∀ id g, EndsSomehow (flatten id g)) (source : NodeId) (g : Graph) :
    EndsSomehow (takenFrom flatten source g) := by
  unfold takenFrom
  split
  · exact endsSomehow_bind (h source g) fun _ => endsSomehow_ok
  · exact endsSomehow_bind (flattenAll_ends h _ g) fun _ => endsSomehow_ok
  · exact ends_reject

theorem flattenAfter_ends (rounds : Nat) (taken : Entries) (id : NodeId) (g : Graph) :
    EndsSomehow (flattenAfter rounds taken id g) := by
  induction rounds generalizing taken id g with
  | zero => exact endsSomehow_ok
  | succ rounds ih =>
    unfold flattenAfter
    split
    · split
      · exact endsSomehow_ok
      · exact endsSomehow_bind (takenFrom_ends (ih []) _ _) fun _ => ih _ _ _
    · exact endsSomehow_ok

theorem flatten_ends (id : NodeId) (g : Graph) : EndsSomehow (flatten id g) :=
  flattenAfter_ends _ [] id g

/-! ## Construction -/

theorem text_ends (g : Graph) (levels : Nat) (id : NodeId) : EndsSomehow (g.text levels id) := by
  induction levels generalizing id with
  | zero => exact ends_failWith .tooDeep
  | succ levels ih =>
    unfold text
    split
    · exact endsSomehow_ok
    · split
      · exact ih _
      · exact ends_reject
    · exact ends_reject

theorem scalarValue_ends (g : Graph) (id : NodeId) (n : Node) : EndsSomehow (g.scalarValue id n) := by
  unfold scalarValue
  refine endsSomehow_bind (text_ends g textDepth id) fun text => ?_
  split
  · exact ends_failWith .notAText
  · exact Yaml.scalarValue_ends _ _ _

end Graph

namespace Maker

/-- Nothing is asked of what has been made of a document so far. -/
abbrev Works {α : Type} (m : Maker α) : Prop := Keeps (fun _ => True) m

theorem note_works (id : NodeId) (v : Value) : (note id v).Works := fun _ h => h

theorem begin_works (id : NodeId) (c : Collection) : (begin id c).Works := fun _ h => h

theorem valueOf_works (id : NodeId) : (valueOf id).Works := by
  unfold valueOf
  refine keeps_get.bind fun m => ?_
  split
  · exact keeps_pure
  · exact keeps_pure
  · split
    · exact begin_works id _
    · refine keeps_ite (keeps_lift ends_reject) ?_
      exact (keeps_lift (Graph.scalarValue_ends m.graph id _)).bind fun v => note_works id v

theorem pairOf_works (id : NodeId) : (pairOf id).Works := by
  unfold pairOf
  refine keeps_get.bind fun m => ?_
  split
  · exact (valueOf_works _).bind fun _ => (valueOf_works _).bind fun _ => keeps_pure
  · exact keeps_lift ends_reject

theorem entryOf_works (entry : NodeId × NodeId) : (entryOf entry).Works := by
  unfold entryOf
  refine (valueOf_works entry.1).bind fun key => ?_
  split
  · exact keeps_lift ends_reject
  · exact (valueOf_works entry.2).bind fun _ => keeps_pure

theorem entriesOf_works (id : NodeId) : (entriesOf id).Works := by
  unfold entriesOf
  refine keeps_get.bind fun m => (keeps_lift (Graph.flatten_ends id m.graph)).bind fun graph => ?_
  exact (keeps_set trivial).bind fun _ => (keeps_mapM entryOf_works _).bind fun _ => keeps_pure

theorem contentOf_works (id : NodeId) : (contentOf id).Works := by
  unfold contentOf
  refine keeps_get.bind fun m => ?_
  split
  · exact (keeps_mapM valueOf_works _).bind fun _ => keeps_pure
  · exact (keeps_mapM pairOf_works _).bind fun _ => keeps_pure
  · exact (keeps_mapM pairOf_works _).bind fun _ => keeps_pure
  · exact (entriesOf_works id).bind fun _ => keeps_pure
  · exact (entriesOf_works id).bind fun _ => keeps_pure
  · exact keeps_lift ends_reject

theorem fillFrom_works (rounds i : Nat) : (fillFrom rounds i).Works := by
  induction rounds generalizing i with
  | zero => exact keeps_pure
  | succ rounds ih =>
    unfold fillFrom
    refine keeps_get.bind fun m => ?_
    split
    · exact keeps_pure
    · refine (contentOf_works _).bind fun content => ?_
      exact Keeps.bind (keeps_modify fun _ _ => trivial) fun _ => ih (i + 1)

theorem wholeValueOf_works (id : NodeId) : (wholeValueOf id).Works := by
  unfold wholeValueOf
  refine (valueOf_works id).bind fun v => keeps_get.bind fun m => ?_
  exact (fillFrom_works _ 0).bind fun _ => keeps_pure

end Maker

theorem Graph.meaning_ends (g : Graph) (root : NodeId) : EndsSomehow (g.meaning root) := by
  unfold Graph.meaning
  exact (Maker.wholeValueOf_works root _ trivial).bind fun _ _ => endsSomehow_ok

/-- Reading a text ends with a document, with a fault of the text, or with a failure of one of the kinds. -/
theorem read_ends (t : Files.PartialText) : EndsSomehow (read (.ofParts t)) := by
  refine endsSomehow_bind (compose_ends t) fun (root?, graph) => ?_
  cases root? with
  | none => exact endsSomehow_ok
  | some root => exact graph.meaning_ends root

theorem isReadingFailure_of_read {t : Files.PartialText} {f : Failure}
    (h : read (.ofParts t) = .error (.failure f)) : IsReadingFailure f := by
  have hends := read_ends t
  rw [h] at hends
  exact hends f rfl

end ToolchainChoice.Yaml
