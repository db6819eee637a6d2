import Mathlib.Data.List.TakeDrop
import ToolchainChoice.Proofs.Yaml.Composing
import ToolchainChoice.Yaml.Meaning

/-!
# The meaning of two lines

A mapping whose key is a text has one entry, with that text and with the value of the node under it. Two
lines with a key each therefore mean a mapping whose only entry is a mapping, with the scalar of the second
line under the second key.
-/
namespace ToolchainChoice.Yaml

open Maker

variable {g : Graph} {m m' m'' : Construction} {id key value : NodeId} {tag : Tag} {text : List Text.Symbol}
  {s : String} {v : Value} {n i : Nat} {r : Ref} {content : Collection}

/-! ## One node -/

/-- What follows a look at the state goes on with it. -/
theorem get_bind_apply {α : Type} (f : Construction → Maker α) : (get >>= f : Maker α) m = f m m := rfl

/-- A scalar with this tag and this text means the value; `which` tells apart a float that is no number. -/
structure Means (which : Nat) (tag : Tag) (text : List Text.Symbol) (v : Value) : Prop where
  scalar : tag.emptyCollection? = none
  meaningful : tag.isMeaningless = false
  value : scalarValue which tag text = .ok v

theorem ofSymbols_chars (cs : List Char) : Value.ofSymbols (cs.map .char) = .text (String.ofList cs) := by
  rw [← Symbols.ofString_ofList, Value.ofSymbols_ofString]

theorem means_text (which : Nat) (cs : List Char) :
    Means which .text (cs.map .char) (.text (String.ofList cs)) where
  scalar := rfl
  meaningful := rfl
  value := congrArg Except.ok (ofSymbols_chars cs)

/-- The value of a scalar that has not been given one yet. -/
theorem valueOf_scalar (hnew : m.values.getD id none = none)
    (hnode : m.graph.get? id = some (.scalar tag text)) (h : Means (id + 1) tag text v) :
    valueOf id m = .ok (v, { m with values := m.values.setIfInBounds id (some v) }) := by
  have htext : m.graph.text Graph.textDepth id = .ok text := by
    unfold Graph.textDepth
    rw [Graph.text, hnode]
  have hscalar : m.graph.scalarValue id (.scalar tag text) = .ok v := by
    unfold Graph.scalarValue
    rw [htext]
    exact h.value
  unfold valueOf
  rw [get_bind_apply]
  rw [hnew, hnode]
  simp only [Node.tag, h.scalar, h.meaningful, hscalar]
  rfl

/-- The value of a mapping is a collection that waits to be filled. -/
theorem valueOf_mapping {entries : Entries} (hnew : m.values.getD id none = none)
    (hnode : m.graph.get? id = some (.mapping .mapping entries)) :
    valueOf id m = .ok (.collection m.store.collections.size,
      { m with
        store := ⟨m.store.collections.push (.map [])⟩
        waiting := m.waiting.push (id, m.store.collections.size)
        values := m.values.setIfInBounds id (some (.collection m.store.collections.size)) }) := by
  unfold valueOf
  rw [get_bind_apply]
  rw [hnew, hnode]
  rfl

/-- To put a node where it is changes nothing. -/
theorem put_same {node : Node} (h : g.get? id = some node) : g.put id node = g := by
  have hnodes : g.nodes.setIfInBounds id node = g.nodes := by
    apply Array.ext_getElem?
    intro i
    rw [Array.getElem?_setIfInBounds]
    split
    · rename_i heq
      obtain rfl := heq
      obtain ⟨hlt, -⟩ := Array.getElem?_eq_some_iff.mp h
      rw [if_pos hlt]
      exact h.symm
    · rfl
  unfold Graph.put
  rw [hnodes]

/-- A mapping without merge keys stays as it is. -/
theorem flatten_entry (hnode : g.get? id = some (.mapping tag [(key, value)]))
    (hkey : g.get? key = some (.scalar .text text)) : g.flatten id = .ok g := by
  have hmerge : g.hasTag .merge key = false := by
    rw [Graph.hasTag, hkey]
    rfl
  have hspan : [(key, value)].span (fun e => !g.hasTag .merge e.1) = ([(key, value)], []) := by
    simp [List.span_eq_takeWhile_dropWhile, hmerge]
  have hput : g.put id (.mapping tag ([] ++ [(key, value)])) = g := put_same hnode
  unfold Graph.flatten
  rw [Graph.flattenAfter, hnode]
  dsimp only
  rw [hspan]
  dsimp only
  rw [hput]
  simp [Graph.retagDefaults, hkey, Node.tag]

/-- What a mapping with one entry is filled with. -/
theorem contentOf_entry (hnode : m.graph.get? id = some (.mapping .mapping [(key, value)]))
    (hkey : m.graph.get? key = some (.scalar .text text)) (htext : valueOf key m = .ok (.text s, m'))
    (hvalue : valueOf value m' = .ok (v, m'')) :
    contentOf id m = .ok (.map [(.text s, v)], m'') := by
  have hentry : entryOf (key, value) m = .ok ((.text s, v), m'') := by
    show (valueOf key m >>= _) = _
    rw [htext]
    show (valueOf value m' >>= _) = _
    rw [hvalue]
    rfl
  have hentries : m.graph.entries? id = some [(key, value)] := by
    unfold Graph.entries?
    rw [hnode]
  have hmade : entriesOf id m = .ok ([(.text s, v)], m'') := by
    show ((m.graph.flatten id >>= fun graph => Except.ok (graph, m)) >>= _) = _
    rw [flatten_entry hnode hkey]
    show (((m.graph.entries? id).getD []).mapM entryOf m >>= _) = _
    rw [hentries]
    show ((entryOf (key, value) m >>= _) >>= _) = _
    rw [hentry]
    rfl
  unfold contentOf
  rw [get_bind_apply]
  rw [hnode]
  show (entriesOf id m >>= _) = _
  rw [hmade]
  rfl

theorem fillFrom_step (hwaiting : m.waiting[i]? = some (id, r))
    (hcontent : contentOf id m = .ok (content, m')) :
    fillFrom (n + 1) i m = fillFrom n (i + 1) { m' with store := m'.store.put r content } := by
  rw [fillFrom, get_bind_apply]
  rw [hwaiting]
  show (contentOf id m >>= _) = _
  rw [hcontent]
  rfl

theorem fillFrom_end (hwaiting : m.waiting[i]? = none) : fillFrom n i m = .ok ((), m) := by
  cases n with
  | zero => rfl
  | succ n =>
    rw [fillFrom, get_bind_apply]
    rw [hwaiting]
    rfl

/-! ## Two lines -/

/-- The tag of a scalar without properties. -/
def scalarTag (cs : List Char) (plain : Bool) : Tag := if plain then .ofPlain cs else .text

theorem scalarNode_chars (cs : List Char) (plain : Bool) :
    scalarNode (cs.map .char) plain = .scalar (scalarTag cs plain) (cs.map .char) := by
  show Node.scalar (if plain then .ofPlain (Text.Symbol.separate (cs.map .char)) else .text) _ = _
  rw [Text.Symbol.separate_chars]
  rfl

/-- The graph is a mapping whose only value is a mapping with a scalar as its only value. -/
structure IsNested (g : Graph) (outer inner : List Char) (tag : Tag) (text : List Text.Symbol) : Prop where
  size : g.nodes.size = 5
  root : g.get? 0 = some (.mapping .mapping [(1, 2)])
  outerKey : g.get? 1 = some (.scalar .text (outer.map .char))
  nested : g.get? 2 = some (.mapping .mapping [(3, 4)])
  innerKey : g.get? 3 = some (.scalar .text (inner.map .char))
  scalar : g.get? 4 = some (.scalar tag text)

theorem isNested_twoLineGraph {outer inner : List Char} (houter : Tag.ofPlain outer = .text)
    (hinner : Tag.ofPlain inner = .text) (scalar : List Char) (plain : Bool) :
    IsNested (twoLineGraph outer inner scalar plain) outer inner (scalarTag scalar plain)
      (scalar.map .char) := by
  have hnode : ∀ cs : List Char, Tag.ofPlain cs = .text →
      scalarNode (cs.map .char) true = .scalar .text (cs.map .char) := by
    intro cs hcs
    rw [scalarNode_chars, scalarTag, if_pos rfl, hcs]
  unfold twoLineGraph
  rw [hnode outer houter, hnode inner hinner, scalarNode_chars]
  exact ⟨rfl, rfl, rfl, rfl, rfl, rfl⟩

/-- A mapping in a mapping. -/
def nestedStore (outer inner : String) (v : Value) : Store where
  collections := #[.map [(.text outer, .collection 1)], .map [(.text inner, v)]]

/-- Only the root has been met. -/
def begun (g : Graph) : Construction where
  graph := g
  store := ⟨#[.map []]⟩
  values := #[some (.collection 0), none, none, none, none]
  waiting := #[(0, 0)]

/-- Both mappings have been met; the collections and the values are those made so far. -/
def filling (g : Graph) (collections : Array Collection) (values : Array (Option Value)) :
    Construction where
  graph := g
  store := ⟨collections⟩
  values := values
  waiting := #[(0, 0), (2, 1)]

/-- The mapping under the key of the root is met when the root is filled, and filled after it. -/
theorem filled_of_isNested {outer inner : List Char} (h : IsNested g outer inner tag text)
    (hscalar : Means 5 tag text v) :
    ∃ m, fillFrom 6 0 (begun g) = .ok ((), m) ∧
      m.store = nestedStore (String.ofList outer) (String.ofList inner) v := by
  obtain ⟨a, ha⟩ : ∃ a, Value.text (String.ofList outer) = a := ⟨_, rfl⟩
  obtain ⟨b, hb⟩ : ∃ b, Value.text (String.ofList inner) = b := ⟨_, rfl⟩
  have hfirst : contentOf 0 (begun g) = .ok (.map [(a, .collection 1)],
      filling g #[.map [], .map []] #[some (.collection 0), some a, some (.collection 1), none, none]) := by
    rw [← ha]
    exact contentOf_entry h.root h.outerKey (valueOf_scalar rfl h.outerKey (means_text 2 outer))
      (valueOf_mapping rfl h.nested)
  have hsecond : contentOf 2 (filling g #[.map [(a, .collection 1)], .map []]
        #[some (.collection 0), some a, some (.collection 1), none, none]) =
      .ok (.map [(b, v)], filling g #[.map [(a, .collection 1)], .map []]
        #[some (.collection 0), some a, some (.collection 1), some b, some v]) := by
    rw [← hb]
    exact contentOf_entry h.nested h.innerKey (valueOf_scalar rfl h.innerKey (means_text 4 inner))
      (valueOf_scalar rfl h.scalar hscalar)
  refine ⟨filling g #[.map [(a, .collection 1)], .map [(b, v)]]
    #[some (.collection 0), some a, some (.collection 1), some b, some v], ?_, ?_⟩
  · have hthen := (fillFrom_step (n := 4) (i := 1) rfl hsecond).trans (fillFrom_end rfl)
    exact (fillFrom_step (r := 0) rfl hfirst).trans hthen
  · rw [← ha, ← hb]
    rfl

theorem meaning_of_isNested {outer inner : List Char} (h : IsNested g outer inner tag text)
    (hscalar : Means 5 tag text v) :
    g.meaning 0 = .ok ⟨nestedStore (String.ofList outer) (String.ofList inner) v, .collection 0⟩ := by
  have hroot : valueOf 0 ⟨g, {}, Array.replicate 5 none, #[]⟩ = .ok (.collection 0, begun g) :=
    valueOf_mapping rfl h.root
  obtain ⟨m, hfilled, hstore⟩ := filled_of_isNested h hscalar
  unfold Graph.meaning
  rw [h.size]
  show ((valueOf 0 ⟨g, {}, Array.replicate 5 none, #[]⟩ >>= _) >>= _) = _
  rw [hroot]
  show ((fillFrom 6 0 (begun g) >>= _) >>= _) = _
  rw [hfilled, ← hstore]
  rfl

/-- A word that is a text as it stands, and short enough for a key. -/
structure IsKey (w : List Char) : Prop where
  word : IsWord w
  short : w.length ≤ keyLimit
  text : Tag.ofPlain w = .text

/-- **Two lines.** Two lines with a key each and a word behind the second one, as it stands or in double
quotes, mean a mapping in a mapping with the value of that word. -/
theorem read_twoLines {outer inner w tail : List Char} {quoted : Bool} {k : Nat} (houter : IsKey outer)
    (hinner : IsKey inner) (hw : IsWord w) (hk : 0 < k) (htail : IsLast tail)
    (hvalue : Means 5 (scalarTag w (!quoted)) (w.map .char) v) :
    read ⟨Scanner.twoLines outer inner (Scanner.writtenWord quoted w ++ tail) k, none⟩ =
      .ok ⟨nestedStore (String.ofList outer) (String.ofList inner) v, .collection 0⟩ := by
  have hshort := And.intro houter.short hinner.short
  have hyields := Scanner.yields_twoLines houter.word hinner.word hw hshort hk htail quoted
  have hgraph := isNested_twoLineGraph houter.text hinner.text w (!quoted)
  unfold read
  rw [compose_twoLines hyields]
  exact meaning_of_isNested hgraph hvalue

end ToolchainChoice.Yaml
