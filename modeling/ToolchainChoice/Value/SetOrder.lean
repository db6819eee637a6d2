import ToolchainChoice.Number.Power
import ToolchainChoice.Value.Basic

/-!
# The order of a set

A set of numbers is shown in the order of a hash table: every number has a place that its residue
modulo a Mersenne prime determines, and takes the first free one from there on. Equal numbers have
equal residues, whether they are integers or floats. Values of other kinds have no place that can be
told, and a set that holds one is shown in the order of writing.
-/
namespace ToolchainChoice.Value

open Number (Binary64 twoTo)

/-- The prime modulo which residues are taken, 2^61 - 1. -/
def hashModulus : Nat := twoTo 61 - 1

/-- The residue with its sign; -1 is never used. -/
def signedHash (negative : Bool) (residue : Nat) : Int :=
  if negative then if residue = 1 then -2 else -(residue : Int) else residue

def floatHash : Binary64 → Option Int
  | .finite negative m e =>
    some (signedHash negative (m * twoTo ((e + 24) % 61) % hashModulus))
  | .infinite negative => some (signedHash negative 314159)
  | .nan => none

/-- The hash of a number. -/
def hash? (v : Value) : Option Int :=
  match v.integer?, v with
  | some n, _ => some (signedHash (n < 0) (n.natAbs % hashModulus))
  | none, .float x => floatHash x
  | none, _ => none

/-- How many places after the first one are tried before the search jumps. -/
def linearProbes : Nat := 9

/-- The first free place in a table, from place `i` on. The table has a power of two of places, so
the jumps reach every one of them when `perturb` has run out. -/
def freePlace (table : Array (Option Value)) (rounds i perturb : Nat) : Nat :=
  match rounds with
  | 0 => i
  | rounds + 1 =>
    let reach := if i + linearProbes < table.size then linearProbes + 1 else 1
    match (List.range reach).find? fun j => (table.getD (i + j) none).isNone with
    | some j => i + j
    | none =>
      let perturb := perturb / 32
      freePlace table rounds ((i * 5 + 1 + perturb) % table.size) perturb

/-- A table with one number more. -/
def placeIn (table : Array (Option Value)) (v : Value) (hash : Int) : Array (Option Value) :=
  let h := if hash < 0 then (hash + twoTo 64).toNat else hash.toNat
  table.setIfInBounds (freePlace table (table.size + 16) (h % table.size) h) (some v)

/-- The least power of two from `size` on that is greater than `n`, if there are rounds enough. -/
def tableSize (rounds size n : Nat) : Nat :=
  match rounds with
  | 0 => size
  | rounds + 1 => if size ≤ n then tableSize rounds (size * 2) n else size

/-- The items of a set in the order in which it is shown; there are no equal ones among them. -/
def inSetOrder (items : List Value) : List Value :=
  match items.mapM fun v => v.hash?.map (v, ·) with
  | none => items
  | some hashed =>
    let n := items.length
    let size := if n < 5 then 8 else tableSize n 8 (2 * n)
    let table := hashed.foldl (fun table (v, h) => placeIn table v h) (Array.replicate size none)
    table.toList.filterMap id

end ToolchainChoice.Value
