import ToolchainChoice.Failure
import ToolchainChoice.Text.Digit
import ToolchainChoice.Value.Shown
import ToolchainChoice.Version.Order
import ToolchainChoice.Version.Reading

/-!
# The supported range

An inclusive window of versions. Only the first two numbers of a release count: 1.20.1 lies in the
same place as 1.20. A `SupportedRange` carries the numbers of its bounds and the proof that they
are in order, so every range that exists can be compared with.
-/
namespace ToolchainChoice

namespace Version

/-- The version that a text denotes, or the failure to report if it denotes none. -/
def require (text : String) : Except Failure Version :=
  match read text with
  | .ok v => .ok v
  | .error .malformed => .error (.invalidVersion (Text.quoted text))
  | .error .numberTooLong => .error .numberTooLong

/-- Whether a text can be compared as a version. -/
def isValid (text : String) : Except Failure Bool :=
  match read text with
  | .ok _ => .ok true
  | .error .malformed => .ok false
  | .error .numberTooLong => .error .numberTooLong

def majorMinorOf (text : String) : Except Failure MajorMinor :=
  (require text).map majorMinor

/-- The order of two texts as versions; the left one is read first. -/
def compareTexts (left right : String) : Except Failure Ordering := do
  let a ← require left
  let b ← require right
  return compare a b

end Version

structure SupportedRange where
  min : String
  max : String
  lower : Version.MajorMinor
  upper : Version.MajorMinor
  min_eq : Version.majorMinorOf min = .ok lower
  max_eq : Version.majorMinorOf max = .ok upper
  lower_le_upper : lower ≤ upper

namespace SupportedRange

/-- A bound is two runs of decimal digits with a point between them; a line feed may follow. -/
def isBound (cs : List Char) : Bool :=
  let first := cs.takeWhile Text.isDecimalDigit
  match cs.dropWhile Text.isDecimalDigit with
  | '.' :: cs =>
    let second := cs.takeWhile Text.isDecimalDigit
    let rest := cs.dropWhile Text.isDecimalDigit
    !first.isEmpty && !second.isEmpty && (rest == [] || rest == ['\n'])
  | _ => false

/-- The bound that a value gives; the store is that of the collections in it. -/
def boundOf (store : Store) (v : Value) : Except Failure String :=
  match v with
  | .text s => if isBound s.toList then .ok s else refuse v
  | v => refuse v
where
  refuse (v : Value) : Except Failure String := do
    .error (.configuration (.invalidBound (← store.shownText v)))

/-- The range between two bounds. Both bounds are checked before either is read. -/
def ofValues (store : Store) (min max : Value) : Except Failure SupportedRange :=
  match boundOf store min, boundOf store max with
  | .error e, _ => .error e
  | .ok _, .error e => .error e
  | .ok min, .ok max =>
    match hmin : Version.majorMinorOf min, hmax : Version.majorMinorOf max with
    | .error e, _ => .error e
    | .ok _, .error e => .error e
    | .ok lower, .ok upper =>
      if h : lower ≤ upper then .ok ⟨min, max, lower, upper, hmin, hmax, h⟩
      else .error (.configuration (.boundsReversed min max))

def defaultMin : String := "1.11"
def defaultMax : String := "1.21"

/-- The range that is used where none is given. -/
def standard : SupportedRange where
  min := defaultMin
  max := defaultMax
  lower := ⟨1, 11⟩
  upper := ⟨1, 21⟩
  min_eq := by rfl
  max_eq := by rfl
  lower_le_upper := by decide

instance : Inhabited SupportedRange := ⟨standard⟩

variable (r : SupportedRange)

def text : String := r.min ++ "-" ++ r.max

/-- Whether a text denotes a version lower than the range. -/
def below (version : String) : Except Failure Bool := do
  let m ← Version.majorMinorOf version
  return m < r.lower

def above (version : String) : Except Failure Bool := do
  let m ← Version.majorMinorOf version
  return r.upper < m

def outside (version : String) : Except Failure Bool := do
  if ← r.below version then return true else r.above version

def contains (version : String) : Except Failure Bool := do
  return !(← r.outside version)

end SupportedRange

namespace Version

/-! The same questions of a version. The range can be left out, and is then the standard one. -/

def isBelow (version : String) (range : SupportedRange := .standard) : Except Failure Bool :=
  range.below version

def isAbove (version : String) (range : SupportedRange := .standard) : Except Failure Bool :=
  range.above version

def isOutside (version : String) (range : SupportedRange := .standard) : Except Failure Bool :=
  range.outside version

end Version

end ToolchainChoice
