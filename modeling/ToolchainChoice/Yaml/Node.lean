import ToolchainChoice.Text.Symbol
import ToolchainChoice.Yaml.Tag

/-!
# Nodes

A document is a graph of nodes with tags. An alias is the node that its anchor marks, so a node may
be a part of several collections, and of itself. Nodes are known by their numbers in the graph.
-/
namespace ToolchainChoice.Yaml

abbrev NodeId := Nat

inductive Node where
  | scalar (tag : Tag) (text : List Text.Symbol)
  | sequence (tag : Tag) (items : List NodeId)
  | mapping (tag : Tag) (entries : List (NodeId × NodeId))
  deriving DecidableEq, Repr

namespace Node

def tag : Node → Tag
  | .scalar tag _ => tag
  | .sequence tag _ => tag
  | .mapping tag _ => tag

def withTag (n : Node) (tag : Tag) : Node :=
  match n with
  | .scalar _ text => .scalar tag text
  | .sequence _ items => .sequence tag items
  | .mapping _ entries => .mapping tag entries

end Node

/-- The nodes by their numbers. -/
structure Graph where
  nodes : Array Node := #[]
  deriving Repr, Inhabited

namespace Graph

def get? (g : Graph) (id : NodeId) : Option Node := g.nodes[id]?

def add (g : Graph) (n : Node) : NodeId × Graph := (g.nodes.size, ⟨g.nodes.push n⟩)

def put (g : Graph) (id : NodeId) (n : Node) : Graph := ⟨g.nodes.setIfInBounds id n⟩

theorem get?_add (g : Graph) (n : Node) : (g.add n).2.get? (g.add n).1 = some n := by
  simp [get?, add]

theorem get?_put {g : Graph} {id : NodeId} (n : Node) (h : id < g.nodes.size) :
    (g.put id n).get? id = some n := by
  simp [get?, put, h]

theorem get?_put_of_ne {g : Graph} {id other : NodeId} (n : Node) (h : other ≠ id) :
    (g.put id n).get? other = g.get? other := by
  simp [get?, put, h.symm]

/-- The entries of a node that is a mapping. -/
def entries? (g : Graph) (id : NodeId) : Option (List (NodeId × NodeId)) :=
  match g.get? id with
  | some (.mapping _ entries) => some entries
  | _ => none

/-- Whether a node has a tag. -/
def hasTag (g : Graph) (tag : Tag) (id : NodeId) : Bool :=
  (g.get? id).any fun n => n.tag == tag

end Graph

end ToolchainChoice.Yaml
