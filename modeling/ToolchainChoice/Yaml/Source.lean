import ToolchainChoice.Files.Text
import ToolchainChoice.Yaml.Character
import ToolchainChoice.Yaml.Fault

/-!
# The text of a document

A document is read part by part, and no part is looked at before the ones in front of it have been
used up. What is wrong with a part as a whole, be it a character that is not allowed or octets that
are no text, is therefore a fault that stands behind the last character before it.
-/
namespace ToolchainChoice.Yaml

open Files (PartialText partEnd)

/-- The characters that can be read, and the fault that is met behind them; there is none if the
text ends there. -/
structure Source where
  chars : List Char
  fault : Option Fault
  deriving Repr

/-- The parts of a text as a document. -/
def Source.ofParts (t : PartialText) : Source :=
  let allowed := t.chars.takeWhile isAllowed
  if allowed.length < t.chars.length then
    ⟨allowed.take (partEnd allowed.length),
      some (.syntaxFault "the text holds a character that is not allowed")⟩
  else ⟨t.chars, if t.complete then none else some (.failure .notUtf8)⟩

end ToolchainChoice.Yaml
