import ToolchainChoice.Failure
import ToolchainChoice.Number.Digits
import ToolchainChoice.Number.FloatText
import ToolchainChoice.Value.Basic

/-!
# Values in messages

How a value looks inside a message: texts are quoted, collections are bracketed, the null value
and the truth values have capitalised names. A collection that holds itself is shown up to the
place where it would begin again; there stand its brackets with three dots between them. An
integer of more than `Number.digitLimit` digits cannot be shown, nor can collections that are nested
too deeply.
-/
namespace ToolchainChoice.Value

open Calendar (Date Moment)

/-- Items with a comma and a space between them. -/
def commaSeparated : List (List Char) → List Char
  | [] => []
  | [item] => item
  | item :: items => item ++ ',' :: ' ' :: commaSeparated items

/-- A name and its arguments in parentheses. -/
def call (name : String) (arguments : List (List Char)) : List Char :=
  name.toList ++ '(' :: commaSeparated arguments ++ [')']

def natText (n : Nat) : List Char := Nat.toDigits 10 n

/-- An octet of a byte text quoted with `quote`. -/
def shownOctet (quote : Char) (octet : UInt8) : List Char :=
  let c := Char.ofNat octet.toNat
  if c = quote ∨ c = '\\' then ['\\', c]
  else if c = '\n' then ['\\', 'n']
  else if c = '\r' then ['\\', 'r']
  else if c = '\t' then ['\\', 't']
  else if ' ' ≤ c ∧ c ≤ '~' then [c]
  else '\\' :: 'x' :: Number.hexDigits 2 octet.toNat

def shownBytes (octets : List UInt8) : List Char :=
  let quote := Text.Quoted.mark (octets.map fun o => Char.ofNat o.toNat)
  'b' :: quote :: octets.flatMap (shownOctet quote) ++ [quote]

def shownDate (d : Date) : List Char :=
  call "datetime.date" [natText d.year, natText d.month, natText d.day]

/-- A time zone by its distance from universal time, as days and seconds. -/
def shownZone (minutes : Int) : List Char :=
  if minutes = 0 then "datetime.timezone.utc".toList
  else
    let seconds := (if minutes < 0 then (minutes + 1440) * 60 else minutes * 60).toNat
    let day := if minutes < 0 then ["days=-1".toList] else []
    call "datetime.timezone"
      [call "datetime.timedelta" (day ++ ["seconds=".toList ++ natText seconds])]

/-- A moment by its numbers, without seconds and microseconds of zero at the end. -/
def shownMoment (m : Moment) : List Char :=
  let parts := [natText m.date.year, natText m.date.month, natText m.date.day, natText m.hour,
    natText m.minute]
  let parts := parts ++
    if m.microsecond ≠ 0 then [natText m.second, natText m.microsecond]
    else if m.second ≠ 0 then [natText m.second]
    else []
  let zone := match m.offset with
    | none => []
    | some minutes => ["tzinfo=".toList ++ shownZone minutes]
  call "datetime.datetime" (parts ++ zone)

def intText (n : Int) : List Char :=
  if n < 0 then '-' :: natText n.natAbs else natText n.natAbs

/-- A value that is no collection, as it is shown inside a message. -/
def shownScalar : Value → Except Failure (List Char)
  | .null => .ok "None".toList
  | .bool true => .ok "True".toList
  | .bool false => .ok "False".toList
  | .int n => if Number.digitsFit (natText n.natAbs) then .ok (intText n) else .error .numberTooLong
  | .float x => .ok x.text
  | .nan _ => .ok "nan".toList
  | .text s => .ok (Text.Quoted.encode s.toList)
  | .broken t => .ok (Text.Symbol.quoted t.symbols)
  | .bytes octets => .ok (shownBytes octets)
  | .date d => .ok (shownDate d)
  | .moment m => .ok (shownMoment m)
  | .collection _ => .ok []

end Value

namespace Collection

/-- What is shown of a collection inside itself. -/
def outline : Collection → List Char
  | .list _ | .pairs _ => "[...]".toList
  | .set _ => "set(...)".toList
  | .map _ => "\x7b...\x7d".toList

/-- A collection as it is shown, if `shown` is how its values are. -/
def shownBy (shown : Value → Except Failure (List Char)) (c : Collection) :
    Except Failure (List Char) :=
  match c with
  | .list items => do
    return '[' :: Value.commaSeparated (← items.mapM shown) ++ [']']
  | .pairs entries => do
    let texts ← entries.mapM fun (a, b) => do
      return '(' :: (← shown a) ++ ',' :: ' ' :: (← shown b) ++ [')']
    return '[' :: Value.commaSeparated texts ++ [']']
  | .set [] => .ok "set()".toList
  | .set items => do
    return '\x7b' :: Value.commaSeparated (← items.mapM shown) ++ ['\x7d']
  | .map entries => do
    let texts ← entries.mapM fun (key, value) => do
      return (← shown key) ++ ':' :: ' ' :: (← shown value)
    return '\x7b' :: Value.commaSeparated texts ++ ['\x7d']

end Collection

namespace Store

/-- How deeply collections can be nested that are shown. -/
def shownDepth : Nat := 980

/-- A value inside the collections `around` it, which may be nested `levels` more levels deep. -/
def shown (s : Store) (levels : Nat) (around : List Ref) (v : Value) :
    Except Failure (List Char) :=
  match v with
  | .collection r =>
    match s.get? r, levels with
    | none, _ => .ok []
    | some _, 0 => .error .tooDeep
    | some c, levels + 1 =>
      if around.contains r then .ok c.outline
      else c.shownBy (shown s levels (r :: around))
  | v => v.shownScalar

/-- The text of a value inside a message. -/
def shownText (s : Store) (v : Value) : Except Failure String :=
  (s.shown shownDepth [] v).map String.ofList

/-- The text of a value that stands for itself: a text bare, a date or moment in ISO form, and
everything else as inside a message. -/
def plainText (s : Store) (v : Value) : Except Failure Symbols :=
  match v with
  | .date d => .ok (String.ofList d.isoText)
  | .moment m => .ok (String.ofList (m.isoText ' '))
  | v =>
    match v.text? with
    | some text => .ok text
    | none => (s.shownText v).map Symbols.ofString

end Store

end ToolchainChoice
