import ToolchainChoice.Text.Symbol
import ToolchainChoice.Yaml.Property

/-!
# Tokens

The text of a document as a sequence of tokens. Collections that are written by indentation have
tokens for their starts and for their common end, so that the structure of a document can be read
from its tokens alone.
-/
namespace ToolchainChoice.Yaml

inductive Token where
  | directive (d : Directive)
  | documentStart
  | documentEnd
  | blockSequence
  | blockMapping
  | blockEnd
  | flowSequence
  | flowSequenceEnd
  | flowMapping
  | flowMappingEnd
  /-- A hyphen before an item. -/
  | entry
  | comma
  | key
  | value
  | alias (name : String)
  | anchor (name : String)
  | tag (t : WrittenTag)
  /-- A scalar; a plain one has no quotes and is no block. -/
  | scalar (text : List Text.Symbol) (plain : Bool)
  deriving DecidableEq, Repr

end ToolchainChoice.Yaml
