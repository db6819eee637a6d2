import ToolchainChoice.Json.Basic
import ToolchainChoice.Number.Literal
import ToolchainChoice.Value.Basic

/-!
# Configuration values from JSON

A JSON number is an integer unless it has a point or an exponent, or is one of the words for floats
that have no digits; of several members with one key the last one counts.
-/
namespace ToolchainChoice

open Number (Binary64 Literal digitsValue splitSign signed)

namespace Value

/-- The value of a JSON number literal. -/
def ofLiteral (literal : String) : Value :=
  let (negative, cs) := splitSign literal.toList
  if cs = "NaN".toList then .nan 0
  else if cs = "Infinity".toList then .float (.infinite negative)
  else if cs.all Char.isDigit then .int (signed negative (digitsValue cs))
  else
    match Literal.ofChars? cs with
    | some d => .float (.ofLiteral negative d)
    | none => .nan 0

mutual

/-- The value of a JSON value, with the collections in it kept in a store. -/
def ofJson (s : Store) : Json → Value × Store
  | .null => (.null, s)
  | .bool b => (.bool b, s)
  | .number literal => (ofLiteral literal, s)
  | .string t => (.ofSymbols t, s)
  | .array items =>
    let (values, s) := ofItems s items
    let (r, s) := s.add (.list values)
    (.collection r, s)
  | .object members =>
    let (entries, s) := ofMembers s members
    let (r, s) := s.add (.map (ofEntries entries))
    (.collection r, s)

def ofItems (s : Store) : List Json → List Value × Store
  | [] => ([], s)
  | item :: items =>
    let (value, s) := ofJson s item
    let (values, s) := ofItems s items
    (value :: values, s)

def ofMembers (s : Store) : List (Symbols × Json) → List (Value × Value) × Store
  | [] => ([], s)
  | (key, member) :: members =>
    let (value, s) := ofJson s member
    let (entries, s) := ofMembers s members
    ((.ofSymbols key, value) :: entries, s)

end

end Value

/-- The document that a JSON value is. -/
def Document.ofJson (j : Json) : Document :=
  let (root, store) := Value.ofJson {} j
  ⟨store, root⟩

end ToolchainChoice
