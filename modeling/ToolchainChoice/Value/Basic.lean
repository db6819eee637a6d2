import ToolchainChoice.Calendar.Moment
import ToolchainChoice.Number.Binary64
import ToolchainChoice.Text.Symbol

/-!
# Configuration values

What a configuration denotes before it is checked: scalars of several kinds, and collections of
values. A mapping keeps its entries in order and has no two keys that are the same; keys are the
same if they are equal as values, so that the integer 1, the float 1.0 and the truth value true
are one key.

A collection may be used in several places, and may hold itself. It is therefore kept in a store,
and a value only refers to it.
-/
namespace ToolchainChoice

open Number (Binary64)
open Calendar (Date Moment)

/-- Where a collection is kept. -/
abbrev Ref := Nat

inductive Value where
  | null
  | bool (b : Bool)
  | int (n : Int)
  /-- A float that is a number, or infinite. -/
  | float (x : Binary64)
  /-- A float that is no number. Such floats are told apart, because each is the same only as
  itself. -/
  | nan (which : Nat)
  | text (s : String)
  | broken (t : Text.Broken)
  | bytes (octets : List UInt8)
  | date (d : Date)
  | moment (m : Moment)
  | collection (r : Ref)
  deriving DecidableEq, Repr, Inhabited

inductive Collection where
  | list (items : List Value)
  /-- A sequence of pairs. -/
  | pairs (entries : List (Value × Value))
  | set (items : List Value)
  | map (entries : List (Value × Value))
  deriving DecidableEq, Repr, Inhabited

/-- The collections by the places where they are kept. -/
structure Store where
  collections : Array Collection := #[]
  deriving Repr, Inhabited

/-- A value with the collections that can be reached from it. -/
structure Document where
  store : Store
  root : Value
  deriving Repr, Inhabited

namespace Store

def get? (s : Store) (r : Ref) : Option Collection := s.collections[r]?

/-- Keeps one collection more. -/
def add (s : Store) (c : Collection) : Ref × Store :=
  (s.collections.size, ⟨s.collections.push c⟩)

/-- Replaces a collection. -/
def put (s : Store) (r : Ref) (c : Collection) : Store := ⟨s.collections.setIfInBounds r c⟩

theorem get?_add (s : Store) (c : Collection) : (s.add c).2.get? (s.add c).1 = some c := by
  simp [get?, add]

theorem get?_add_of_lt {s : Store} {r : Ref} (c : Collection) (h : r < s.collections.size) :
    (s.add c).2.get? r = s.get? r := by
  simp [get?, add, Array.getElem?_push, Nat.ne_of_lt h]

theorem get?_put {s : Store} {r : Ref} (c : Collection) (h : r < s.collections.size) :
    (s.put r c).get? r = some c := by
  simp [get?, put, h]

theorem get?_put_of_ne {s : Store} {r q : Ref} (c : Collection) (h : q ≠ r) :
    (s.put r c).get? q = s.get? q := by
  simp [get?, put, h.symm]

end Store

namespace Value

/-- The value of a float; `which` tells it apart if it is no number. -/
def ofFloat (which : Nat) (x : Binary64) : Value := if x = .nan then .nan which else .float x

/-- The value of a text. -/
def ofSymbols (symbols : Symbols) : Value :=
  match h : symbols.text? with
  | some s => .text s
  | none => .broken ⟨symbols, h⟩

/-- The text that a value is. -/
def text? : Value → Option Symbols
  | .text s => some s
  | .broken t => some t.symbols
  | _ => none

@[simp] theorem ofSymbols_ofString (text : String) : ofSymbols text = .text text := by
  unfold ofSymbols
  split
  · rename_i h
    rw [Symbols.text?_ofString] at h
    rw [Option.some.inj h]
  · rename_i h
    rw [Symbols.text?_ofString] at h
    contradiction

/-- A value is a text exactly if it is the value of that text. -/
theorem text?_eq_some_iff {v : Value} {symbols : Symbols} :
    v.text? = some symbols ↔ v = .ofSymbols symbols := by
  constructor
  · intro h
    cases v with
    | text s =>
      obtain rfl := Option.some.inj h
      exact (ofSymbols_ofString s).symm
    | broken t =>
      obtain rfl := Option.some.inj h
      unfold ofSymbols
      split
      · rename_i ht
        rw [t.text?_eq] at ht
        contradiction
      · rfl
    | _ => contradiction
  · rintro rfl
    unfold ofSymbols
    split
    · rename_i h
      rw [Symbols.eq_of_text? h]
      rfl
    · rfl

/-- The integer that a value equals as a number, for integers and truth values. -/
def integer? : Value → Option Int
  | .int n => some n
  | .bool b => some (if b then 1 else 0)
  | _ => none

/-- Equality of values as keys; collections cannot be keys. -/
def same (a b : Value) : Bool :=
  match a.integer?, b.integer? with
  | some m, some n => m == n
  | some m, none => match b with
    | .float x => x.isInt m
    | _ => false
  | none, some n => match a with
    | .float x => x.isInt n
    | _ => false
  | none, none =>
    match a, b with
    | .float x, .float y => x.equals y
    | .moment m, .moment n => m.sameInstant n
    | .collection _, _ => false
    | a, b => a == b

/-- The value of the text key `key`. -/
def get? (entries : List (Value × Value)) (key : String) : Option Value :=
  (entries.find? fun entry => entry.1.same (.text key)).map Prod.snd

/-- The entries with `key` set to `value`: in place if the key is there, at the end otherwise. -/
def insert (key value : Value) : List (Value × Value) → List (Value × Value)
  | [] => [(key, value)]
  | entry :: entries =>
    if entry.1.same key then (entry.1, value) :: entries else entry :: insert key value entries

/-- Entries in order of writing, a later value replacing an earlier one of the same key. -/
def ofEntries (entries : List (Value × Value)) : List (Value × Value) :=
  entries.foldl (fun done entry => insert entry.1 entry.2 done) []

/-- Whether a value equals the number one. -/
def isOne (v : Value) : Bool := v.same (.int 1)

end Value

def Collection.isEmpty : Collection → Bool
  | .list items => items.isEmpty
  | .pairs entries => entries.isEmpty
  | .set items => items.isEmpty
  | .map entries => entries.isEmpty

namespace Store

/-- The entries of a value that is a mapping. -/
def entries? (s : Store) (v : Value) : Option (List (Value × Value)) :=
  match v with
  | .collection r =>
    match s.get? r with
    | some (.map entries) => some entries
    | _ => none
  | _ => none

/-- Whether a value counts as nothing: an empty text or collection, zero, false, null. -/
def isEmpty (s : Store) (v : Value) : Bool :=
  match v with
  | .null => true
  | .bool b => !b
  | .int n => n == 0
  | .float x => x.isZero
  | .text t => t.isEmpty
  | .bytes octets => octets.isEmpty
  | .collection r => (s.get? r).any Collection.isEmpty
  | .nan _ | .broken _ | .date _ | .moment _ => false

end Store

end ToolchainChoice
