import ToolchainChoice.Value.SetOrder
import ToolchainChoice.Yaml.Composition
import ToolchainChoice.Yaml.Merge
import ToolchainChoice.Yaml.Scalar

/-!
# What a document means

The value of a node is given by its tag: scalars have the values of their texts, and collections are
filled with the values of their parts. A node has one value, wherever it is used.

Collections are made empty and filled later, in the order in which they were met: those further out
before those further inside. So a collection can hold itself, and the fault that is found first is
the one that is least deep. Not every document has a value: a node may have a tag that nothing is
known about, or one of another kind of node, and a collection cannot be a key.
-/
namespace ToolchainChoice.Yaml

namespace Tag

/-- The empty collection for a tag of collections. -/
def emptyCollection? : Tag → Option Collection
  | .sequence => some (.list [])
  | .orderedMap | .pairs => some (.pairs [])
  | .set => some (.set [])
  | .mapping => some (.map [])
  | _ => none

/-- Whether nothing is known about nodes with the tag. -/
def isMeaningless : Tag → Bool
  | .merge | .default | .unknown _ => true
  | _ => false

end Tag

namespace Graph

/-- How many mappings can stand for one another in a row. -/
def textDepth : Nat := 970

/-- The text that stands for a node with a tag of scalars: a mapping has that of its default entry,
if it has one. -/
def text (g : Graph) (levels : Nat) (id : NodeId) : Result (List Text.Symbol) :=
  match levels with
  | 0 => failWith .tooDeep
  | levels + 1 =>
    match g.get? id with
    | some (.scalar _ text) => .ok text
    | some (.mapping _ entries) =>
      match entries.find? fun e => g.hasTag .default e.1 with
      | some (_, value) => text g levels value
      | none => reject "a mapping has a tag that it cannot have"
    | _ => reject "a collection has a tag that it cannot have"

/-- The value of a node with a tag of scalars. A time stamp cannot be read from a mapping, even if
one of its entries stands for it. -/
def scalarValue (g : Graph) (id : NodeId) (n : Node) : Result Value := do
  let text ← g.text textDepth id
  match n with
  | .mapping .timestamp _ => failWith .notAText
  | n => Yaml.scalarValue (id + 1) n.tag text

end Graph

/-- What has been made of a document so far. -/
structure Construction where
  graph : Graph
  store : Store := {}
  /-- The values of nodes by their numbers. -/
  values : Array (Option Value)
  /-- The nodes whose collections are to be filled, and where these are kept. -/
  waiting : Array (NodeId × Ref) := #[]

/-- A step of construction. -/
abbrev Maker := StateT Construction Result

namespace Maker

/-- Notes the value of a node. -/
def note (id : NodeId) (v : Value) : Maker Value := do
  modify fun m => { m with values := m.values.setIfInBounds id (some v) }
  return v

/-- Makes an empty collection for a node, to be filled later. -/
def begin (id : NodeId) (c : Collection) : Maker Value := do
  let m ← get
  let (r, store) := m.store.add c
  set { m with store, waiting := m.waiting.push (id, r) }
  note id (.collection r)

/-- The value of a node. -/
def valueOf (id : NodeId) : Maker Value := do
  let m ← get
  match m.values.getD id none, m.graph.get? id with
  | some v, _ => return v
  | none, none => return .null
  | none, some n =>
    match n.tag.emptyCollection? with
    | some c => begin id c
    | none =>
      if n.tag.isMeaningless then reject "nothing is known about a tag"
      else note id (← m.graph.scalarValue id n)

/-- The pair that the only entry of a mapping is. -/
def pairOf (id : NodeId) : Maker (Value × Value) := do
  match (← get).graph.entries? id with
  | some [(key, value)] => return (← valueOf key, ← valueOf value)
  | _ => reject "an item of an ordered map is no mapping with one entry"

/-- The key and the value of an entry of a mapping. -/
def entryOf (entry : NodeId × NodeId) : Maker (Value × Value) := do
  match ← valueOf entry.1 with
  | .collection _ => reject "a collection cannot be a key"
  | key => return (key, ← valueOf entry.2)

/-- The entries of a mapping with those that it takes over. -/
def entriesOf (id : NodeId) : Maker (List (Value × Value)) := do
  let m ← get
  let graph ← m.graph.flatten id
  set { m with graph }
  return Value.ofEntries (← ((graph.entries? id).getD []).mapM entryOf)

/-- What a collection is filled with. The tag of its node must be one of the node's kind. -/
def contentOf (id : NodeId) : Maker Collection := do
  match (← get).graph.get? id with
  | some (.sequence .sequence items) => return .list (← items.mapM valueOf)
  | some (.sequence .orderedMap items) | some (.sequence .pairs items) =>
    return .pairs (← items.mapM pairOf)
  | some (.mapping .mapping _) => return .map (← entriesOf id)
  | some (.mapping .set _) =>
    return .set (Value.inSetOrder ((← entriesOf id).map Prod.fst))
  | _ => reject "a collection has a tag that it cannot have"

/-- Fills the collections that wait, from the one with the number `i` on. No node waits twice, so
there are no more rounds than nodes. -/
def fillFrom (rounds i : Nat) : Maker Unit :=
  match rounds with
  | 0 => return
  | rounds + 1 => do
    match (← get).waiting[i]? with
    | none => return
    | some (id, r) =>
      let content ← contentOf id
      modify fun m => { m with store := m.store.put r content }
      fillFrom rounds (i + 1)

/-- The value of a node and of all that is in it. -/
def wholeValueOf (id : NodeId) : Maker Value := do
  let v ← valueOf id
  fillFrom ((← get).values.size + 1) 0
  return v

end Maker

/-- What the node `root` of a graph means. -/
def Graph.meaning (g : Graph) (root : NodeId) : Result Document := do
  let start : Construction := { graph := g, values := Array.replicate g.nodes.size none }
  let (v, m) ← (Maker.wholeValueOf root).run start
  return ⟨m.store, v⟩

/-- What a text means; without a document in it, it means the null value. -/
def read (source : Source) : Result Document := do
  match ← compose source with
  | (none, _) => return ⟨{}, .null⟩
  | (some root, graph) => graph.meaning root

end ToolchainChoice.Yaml
