import ToolchainChoice.Yaml.Fault
import ToolchainChoice.Yaml.Node

/-!
# Merging mappings

A mapping takes over the entries of the mappings under its merge keys, in front of its own, so that
its own win. This is a change of the graph: whoever uses the mapping afterwards finds the entries of
other mappings in it and no merge keys. A mapping may be under its own merge keys, or under those of
a mapping that it takes over. A merge key is gone before the mapping under it is looked at, so there
is one key less at every step, and the rounds are bounded by the number of the keys.

An entry whose key has the tag of defaults stands for the whole mapping only until merging; then
that key is a text like any other.
-/
namespace ToolchainChoice.Yaml

/-- The entries of a mapping. -/
abbrev Entries := List (NodeId × NodeId)

namespace Graph

/-- Makes the keys with the tag of defaults texts. -/
def retagDefaults (g : Graph) (entries : Entries) : Graph :=
  entries.foldl
    (fun g (key, _) =>
      match g.get? key with
      | some n => if n.tag = .default then g.put key (n.withTag .text) else g
      | none => g)
    g

/-- The number of merge keys. -/
def mergeKeys (g : Graph) : Nat :=
  g.nodes.foldl
    (fun count n =>
      match n with
      | .mapping _ entries => count + (entries.filter fun e => g.hasTag .merge e.1).length
      | _ => count)
    0

/-- The entries of each of some mappings, the last one first, where `flatten` merges a mapping. -/
def flattenAll (flatten : NodeId → Graph → Result Graph) (items : List NodeId) (g : Graph) :
    Result (List Entries × Graph) :=
  items.foldlM
    (fun (found, g) item =>
      match g.get? item with
      | some (.mapping ..) => do
        let g ← flatten item g
        return ((g.entries? item).getD [] :: found, g)
      | _ => reject "only mappings can be merged")
    ([], g)

/-- The entries that are taken over from a node under a merge key. -/
def takenFrom (flatten : NodeId → Graph → Result Graph) (source : NodeId) (g : Graph) :
    Result (Entries × Graph) :=
  match g.get? source with
  | some (.mapping ..) => do
    let g ← flatten source g
    return ((g.entries? source).getD [], g)
  | some (.sequence _ items) => do
    let (found, g) ← flattenAll flatten items g
    return (found.flatten, g)
  | _ => reject "only mappings can be merged"

/-- Merges what is under the merge keys of a mapping into it, after the entries `taken` that have
been taken over already. -/
def flattenAfter (rounds : Nat) (taken : Entries) (id : NodeId) (g : Graph) : Result Graph :=
  match rounds with
  | 0 => .ok g
  | rounds + 1 =>
    match g.get? id with
    | some (.mapping tag entries) =>
      match entries.span fun e => !g.hasTag .merge e.1 with
      | (_, []) => .ok ((g.put id (.mapping tag (taken ++ entries))).retagDefaults entries)
      | (before, (_, source) :: after) => do
        let g := g.put id (.mapping tag (before ++ after))
        let (more, g) ← takenFrom (flattenAfter rounds []) source g
        flattenAfter rounds (taken ++ more) id g
    | _ => .ok g

/-- Merges what is under the merge keys of a mapping into it. -/
def flatten (id : NodeId) (g : Graph) : Result Graph := flattenAfter (g.mergeKeys + 1) [] id g

end Graph

end ToolchainChoice.Yaml
