import ToolchainChoice.Yaml.Node
import ToolchainChoice.Yaml.Scanner

/-!
# From tokens to nodes

The tokens of a document are looked at one by one, and nodes are put into the graph as they begin,
so that an alias within a node can refer to it. Nothing is read twice, and no token is asked for
that is not needed to tell what stands before it; a fault further on is therefore never reported in
place of one that comes first.

The rounds of the readers below bound the tokens that they take and the levels of the grammar that
they go down; a text has fewer than `roundsFor` of them. The levels are those of nested nodes.
-/
namespace ToolchainChoice.Yaml

/-- What has been read so far. -/
structure Reading where
  scanner : Scanner
  graph : Graph := {}
  anchors : List (String × NodeId) := []

/-- A step of reading. -/
abbrev Reader := StateT Reading Result

/-- The handles of tags and what they stand for. -/
abbrev Handles := List (String × String)

def standardHandles : Handles := [("!", "!"), ("!!", tagPrefix)]

namespace Reader

/-- The next token; there is none at the end. -/
def peek : Reader (Option Token) := do
  let r ← get
  let scanner ← r.scanner.settle
  set { r with scanner }
  return scanner.tokens.head?

/-- Takes the next token. -/
def drop : Reader Unit := modify fun r => { r with scanner := r.scanner.take }

def addNode (n : Node) : Reader NodeId := do
  let r ← get
  let (id, graph) := r.graph.add n
  set { r with graph }
  return id

def putNode (id : NodeId) (n : Node) : Reader Unit :=
  modify fun r => { r with graph := r.graph.put id n }

/-- Lets an anchor mark a node. -/
def mark (anchor : Option String) (id : NodeId) : Reader Unit :=
  match anchor with
  | none => return
  | some name => modify fun r => { r with anchors := (name, id) :: r.anchors }

/-- The node that an anchor marks. -/
def marked? (name : String) : Reader (Option NodeId) := do return (← get).anchors.lookup name

/-- A node that is not written. -/
def emptyNode : Reader NodeId := addNode (.scalar .null [])

end Reader

open Reader

/-! ## Properties -/

/-- What precedes the content of a node. -/
structure Properties where
  anchor : Option String := none
  /-- The name of the tag; a lone exclamation mark asks for the tag of a plain scalar. -/
  tag : Option String := none

/-- The name of a tag. -/
def tagName (handles : Handles) (t : WrittenTag) : Result String :=
  match t.handle with
  | none => .ok t.suffix
  | some handle =>
    match handles.lookup handle with
    | some standsFor => .ok (standsFor ++ t.suffix)
    | none => reject "the handle of a tag is not known"

/-- The anchor and the tag of a node, in either order. -/
def properties (handles : Handles) : Reader Properties := do
  match ← peek with
  | some (.anchor anchor) =>
    drop
    match ← peek with
    | some (.tag t) =>
      drop
      return ⟨some anchor, some (← tagName handles t)⟩
    | _ => return ⟨some anchor, none⟩
  | some (.tag t) =>
    drop
    match ← peek with
    | some (.anchor anchor) =>
      drop
      return ⟨some anchor, some (← tagName handles t)⟩
    | _ => return ⟨none, some (← tagName handles t)⟩
  | _ => return {}

namespace Properties

/-- Whether the node has no tag of its own. -/
def isUntagged (p : Properties) : Bool := p.tag.all (· == "!")

/-- The tag of a collection. -/
def collectionTag (p : Properties) (standard : Tag) : Tag :=
  match p.tag with
  | none => standard
  | some name => if name = "!" then standard else .ofName name

/-- The tag of a scalar. -/
def scalarTag (p : Properties) (text : List Text.Symbol) (plain : Bool) : Tag :=
  match p.tag with
  | none => if plain then .ofPlain (Text.Symbol.separate text) else .text
  | some name => if name = "!" then .ofPlain (Text.Symbol.separate text) else .ofName name

/-- The tag of a node whose content is not written. -/
def emptyTag (p : Properties) : Tag := if p.isUntagged then .null else p.collectionTag .text

/-- An anchor can be set only once. -/
def check (p : Properties) : Reader Unit := do
  match p.anchor with
  | none => return
  | some name => if (← marked? name).isSome then reject "an anchor is set twice"

end Properties

/-! ## Nodes -/

/-- Whether an item of a block sequence is not written. -/
def lacksItem : Option Token → Bool
  | some .entry | some .blockEnd => true
  | _ => false

/-- Whether an item of a sequence that is not indented is not written. -/
def lacksPlainItem : Option Token → Bool
  | some .entry | some .key | some .value | some .blockEnd => true
  | _ => false

/-- Whether a key or value in a block mapping is not written. -/
def lacksBlockPart : Option Token → Bool
  | some .key | some .value | some .blockEnd => true
  | _ => false

/-- Whether a key in a flow collection that `last` ends is not written. -/
def lacksFlowKey (last : Token) : Option Token → Bool
  | some t => t == .value || t == .comma || t == last
  | none => false

/-- Whether a value in a flow collection that `last` ends is not written. -/
def lacksFlowValue (last : Token) : Option Token → Bool
  | some t => t == .comma || t == last
  | none => false

/-- How a node may be written. -/
inductive Place where
  /-- Not by indentation. -/
  | flow
  | block
  /-- As a block, or as a sequence that is not indented. -/
  | part
  deriving DecidableEq, Repr

/-- How deeply nodes can be nested. -/
def nestingDepth : Nat := 490

/-- A sequence whose items `items` reads. -/
def sequenceWith (p : Properties) (items : Reader (List NodeId)) : Reader NodeId := do
  let tag := p.collectionTag .sequence
  let id ← addNode (.sequence tag [])
  mark p.anchor id
  let items ← items
  putNode id (.sequence tag items)
  return id

/-- A mapping whose entries `entries` reads. -/
def mappingWith (p : Properties) (entries : Reader (List (NodeId × NodeId))) : Reader NodeId := do
  let tag := p.collectionTag .mapping
  let id ← addNode (.mapping tag [])
  mark p.anchor id
  let entries ← entries
  putNode id (.mapping tag entries)
  return id

def scalarWith (p : Properties) (tag : Tag) (text : List Text.Symbol) : Reader NodeId := do
  let id ← addNode (.scalar tag text)
  mark p.anchor id
  return id

mutual

/-- Reads a node. -/
def readNode (handles : Handles) (rounds levels : Nat) (place : Place) : Reader NodeId :=
  match rounds, levels with
  | 0, _ | _, 0 => failWith .tooDeep
  | rounds + 1, levels + 1 => do
    match ← peek with
    | some (.alias name) =>
      drop
      match ← marked? name with
      | some id => return id
      | none => reject "an alias refers to no anchor"
    | _ =>
      let p ← properties handles
      match ← peek, place with
      | some .entry, .part =>
        p.check
        sequenceWith p (readPlainItems handles rounds levels)
      | some (.scalar text plain), _ =>
        drop
        p.check
        scalarWith p (p.scalarTag text plain) text
      | some .flowSequence, _ =>
        p.check
        sequenceWith p do
          drop
          readFlowItems handles rounds levels true
      | some .flowMapping, _ =>
        p.check
        mappingWith p do
          drop
          readFlowEntries handles rounds levels true
      | some .blockSequence, .block | some .blockSequence, .part =>
        p.check
        sequenceWith p do
          drop
          readItems handles rounds levels
      | some .blockMapping, .block | some .blockMapping, .part =>
        p.check
        mappingWith p do
          drop
          readEntries handles rounds levels
      | _, _ =>
        if p.anchor.isSome || p.tag.isSome then
          p.check
          scalarWith p p.emptyTag []
        else reject "a node is missing"

/-- The items of a block sequence, and its end. -/
def readItems (handles : Handles) (rounds levels : Nat) : Reader (List NodeId) :=
  match rounds with
  | 0 => failWith .tooDeep
  | rounds + 1 => do
    match ← peek with
    | some .entry =>
      drop
      let item ← if lacksItem (← peek) then emptyNode else readNode handles rounds levels .block
      return item :: (← readItems handles rounds levels)
    | some .blockEnd =>
      drop
      return []
    | _ => reject "an item of a sequence is missing"

/-- The items of a sequence that is not indented. -/
def readPlainItems (handles : Handles) (rounds levels : Nat) : Reader (List NodeId) :=
  match rounds with
  | 0 => failWith .tooDeep
  | rounds + 1 => do
    match ← peek with
    | some .entry =>
      drop
      let item ←
        if lacksPlainItem (← peek) then emptyNode else readNode handles rounds levels .block
      return item :: (← readPlainItems handles rounds levels)
    | _ => return []

/-- The entries of a block mapping, and its end. -/
def readEntries (handles : Handles) (rounds levels : Nat) : Reader (List (NodeId × NodeId)) :=
  match rounds with
  | 0 => failWith .tooDeep
  | rounds + 1 => do
    match ← peek with
    | some .key =>
      drop
      let key ← if lacksBlockPart (← peek) then emptyNode else readNode handles rounds levels .part
      let value ← readValue handles rounds levels
      return (key, value) :: (← readEntries handles rounds levels)
    | some .blockEnd =>
      drop
      return []
    | _ => reject "a key is missing"

/-- The value of an entry of a block mapping. -/
def readValue (handles : Handles) (rounds levels : Nat) : Reader NodeId :=
  match rounds with
  | 0 => failWith .tooDeep
  | rounds + 1 => do
    match ← peek with
    | some .value =>
      drop
      if lacksBlockPart (← peek) then emptyNode else readNode handles rounds levels .part
    | _ => emptyNode

/-- The value of an entry in a flow collection that `last` ends. -/
def readFlowValue (handles : Handles) (rounds levels : Nat) (last : Token) : Reader NodeId :=
  match rounds with
  | 0 => failWith .tooDeep
  | rounds + 1 => do
    match ← peek with
    | some .value =>
      drop
      if lacksFlowValue last (← peek) then emptyNode else readNode handles rounds levels .flow
    | _ => emptyNode

/-- An entry whose key is marked, in a flow collection that `last` ends. -/
def readFlowEntry (handles : Handles) (rounds levels : Nat) (last : Token) :
    Reader (NodeId × NodeId) :=
  match rounds with
  | 0 => failWith .tooDeep
  | rounds + 1 => do
    drop
    let key ←
      if lacksFlowKey last (← peek) then emptyNode else readNode handles rounds levels .flow
    let value ← readFlowValue handles rounds levels last
    return (key, value)

/-- The items of a flow sequence, and its end. An entry among them is a mapping by itself. -/
def readFlowItems (handles : Handles) (rounds levels : Nat) (first : Bool) :
    Reader (List NodeId) :=
  match rounds with
  | 0 => failWith .tooDeep
  | rounds + 1 => do
    let next ← peek
    if next != some .flowSequenceEnd && !first then
      if next == some .comma then drop else reject "a comma is missing in a flow sequence"
    match ← peek with
    | some .flowSequenceEnd =>
      drop
      return []
    | some .key =>
      let item ← mappingWith {} do return [← readFlowEntry handles rounds levels .flowSequenceEnd]
      return item :: (← readFlowItems handles rounds levels false)
    | _ =>
      let item ← readNode handles rounds levels .flow
      return item :: (← readFlowItems handles rounds levels false)

/-- The entries of a flow mapping, and its end. A node without a colon is a key. -/
def readFlowEntries (handles : Handles) (rounds levels : Nat) (first : Bool) :
    Reader (List (NodeId × NodeId)) :=
  match rounds with
  | 0 => failWith .tooDeep
  | rounds + 1 => do
    let next ← peek
    if next != some .flowMappingEnd && !first then
      if next == some .comma then drop else reject "a comma is missing in a flow mapping"
    match ← peek with
    | some .flowMappingEnd =>
      drop
      return []
    | some .key =>
      let entry ← readFlowEntry handles rounds levels .flowMappingEnd
      return entry :: (← readFlowEntries handles rounds levels false)
    | _ =>
      let key ← readNode handles rounds levels .flow
      let value ← emptyNode
      return (key, value) :: (← readFlowEntries handles rounds levels false)

end

/-! ## Documents -/

/-- The handles that the directives before a document define. -/
def readDirectives (rounds : Nat) (versioned : Bool) (defined : Handles) : Reader Handles :=
  match rounds with
  | 0 => return defined
  | rounds + 1 => do
    match ← peek with
    | some (.directive (.version major _)) =>
      drop
      if versioned then reject "the version is given twice"
      else if major ≠ 1 then reject "the version is not known"
      else readDirectives rounds true defined
    | some (.directive (.tag handle standsFor)) =>
      drop
      if (defined.lookup handle).isSome then reject "a handle is defined twice"
      else readDirectives rounds versioned ((handle, standsFor) :: defined)
    | some (.directive .other) =>
      drop
      readDirectives rounds versioned defined
    | _ => return defined

/-- Whether a document has no content. -/
def lacksContent : Option Token → Bool
  | none | some (.directive _) | some .documentStart | some .documentEnd => true
  | _ => false

/-- Takes the marks for the end of a document. -/
def dropEnds (rounds : Nat) : Reader Unit :=
  match rounds with
  | 0 => return
  | rounds + 1 => do
    if (← peek) == some .documentEnd then
      drop
      dropEnds rounds

/-- Reads to the end of the text; no other document may begin there. -/
def readEnd (rounds : Nat) : Reader Unit := do
  dropEnds rounds
  if (← peek).isSome then
    let _ ← readDirectives rounds false []
    let _ ← peek
    reject "text follows the document"

/-- Reads a text with one document, or with none. -/
def readDocument (rounds : Nat) : Reader (Option NodeId) := do
  match ← peek with
  | none => return none
  | some (.directive _) | some .documentStart =>
    let defined ← readDirectives rounds false []
    if (← peek) == some .documentStart then
      drop
      let root ←
        if lacksContent (← peek) then emptyNode
        else readNode (defined ++ standardHandles) rounds (nestingDepth + 1) .block
      readEnd rounds
      return some root
    else reject "a document does not begin after its directives"
  | _ =>
    let root ← readNode standardHandles rounds (nestingDepth + 1) .block
    readEnd rounds
    return some root

/-- More than the rounds that reading a text can take. -/
def roundsFor (source : Source) : Nat := 20 * source.chars.length + 100

/-- The nodes of a text, and the one that is the document if there is one. -/
def compose (source : Source) : Result (Option NodeId × Graph) := do
  let (root, r) ← (readDocument (roundsFor source)).run { scanner := .ofSource source }
  return (root, r.graph)

end ToolchainChoice.Yaml
