import ToolchainChoice.Text.Symbol

/-!
# JSON values

An object keeps its members in order and may repeat a key; a number is kept as the literal that
was written, so that no digit of it is lost. Keys and strings can hold halves of characters.
-/
namespace ToolchainChoice

inductive Json where
  | null
  | bool (b : Bool)
  | number (literal : String)
  | string (text : Symbols)
  | array (items : List Json)
  | object (members : List (Symbols × Json))
  deriving BEq, Repr, Inhabited

namespace Json

/-- A natural number or its negative. -/
def ofInt (n : Int) : Json := .number (toString n)

/-- The value of the first member with this key. -/
def member? (key : String) : Json → Option Json
  | .object members => members.lookup (key : Symbols)
  | _ => none

mutual

/-- A value in whose keys and strings no half stands beside its other half. -/
def paired : Json → Json
  | .string text => .string text.paired
  | .array items => .array (pairedItems items)
  | .object members => .object (pairedMembers members)
  | j => j

def pairedItems : List Json → List Json
  | [] => []
  | item :: items => item.paired :: pairedItems items

def pairedMembers : List (Symbols × Json) → List (Symbols × Json)
  | [] => []
  | (key, value) :: members => (key.paired, value.paired) :: pairedMembers members

end

end Json

end ToolchainChoice
