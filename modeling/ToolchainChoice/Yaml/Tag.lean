/-!
# Tags

The tag of a node tells what its text or its parts mean. Nodes without a tag get one: collections
the tag of their kind, scalars in quotes the tag of texts, and plain scalars the tag of the first
form that they have. The forms are those of the first version of the format: `yes` is a truth value,
`010` is an octal number, `1:30` has base sixty, and a float has a point.
-/
namespace ToolchainChoice.Yaml

inductive Tag where
  | null
  | bool
  | int
  | float
  | binary
  | timestamp
  | orderedMap
  | pairs
  | set
  | text
  | sequence
  | mapping
  /-- The key of entries that are taken over from another mapping. -/
  | merge
  /-- The key of the entry that stands for the whole mapping. -/
  | default
  | unknown (name : String)
  deriving DecidableEq, Repr

/-- What the names of the known tags begin with. -/
def tagPrefix : String := "tag:yaml.org,2002:"

/-- The known tags with the rest of their names. -/
def knownTags : List (String × Tag) :=
  [("null", .null), ("bool", .bool), ("int", .int), ("float", .float), ("binary", .binary),
   ("timestamp", .timestamp), ("omap", .orderedMap), ("pairs", .pairs), ("set", .set),
   ("str", .text), ("seq", .sequence), ("map", .mapping), ("merge", .merge), ("value", .default)]

def Tag.ofName (name : String) : Tag :=
  ((knownTags.find? fun t => tagPrefix ++ t.1 == name).map Prod.snd).getD (.unknown name)

/-! ## Forms of plain scalars -/

/-- The scalar without a line feed at its end, which belongs to no form. -/
def trimEnd (cs : List Char) : List Char :=
  match cs.getLast? with
  | some '\n' => cs.dropLast
  | _ => cs

/-- Whether the scalar is one of some words. -/
def isOneOf (words : List String) (cs : List Char) : Bool :=
  words.any fun word => word.toList == trimEnd cs

def boolWords : List String :=
  ["yes", "Yes", "YES", "no", "No", "NO", "true", "True", "TRUE", "false", "False", "FALSE",
   "on", "On", "ON", "off", "Off", "OFF"]

def isNull (cs : List Char) : Bool := cs.isEmpty || isOneOf ["~", "null", "Null", "NULL"] cs

def isDigitOr_ (c : Char) : Bool := c.isDigit || c == '_'

def isSexagesimalDigit (c : Char) : Bool := '0' ≤ c && c ≤ '5'

/-- What follows parts of base sixty, each with a colon before it, if there is one at least. -/
def skipSexagesimal? : List Char → Option (List Char)
  | ':' :: a :: b :: cs =>
    if isSexagesimalDigit a && b.isDigit then some ((skipSexagesimal? cs).getD cs)
    else if a.isDigit then some ((skipSexagesimal? (b :: cs)).getD (b :: cs))
    else none
  | [':', a] => if a.isDigit then some [] else none
  | _ => none

def dropSign : List Char → List Char
  | '-' :: cs => cs
  | '+' :: cs => cs
  | cs => cs

/-- Whether a text has one character at least, and only characters of a class. -/
def isRun (p : Char → Bool) (cs : List Char) : Bool := !cs.isEmpty && cs.all p

/-- The form of an unsigned integer. -/
def isUnsignedInt (cs : List Char) : Bool :=
  match cs with
  | ['0'] => true
  | '0' :: 'b' :: cs => isRun (fun c => c == '0' || c == '1' || c == '_') cs
  | '0' :: 'x' :: cs =>
    isRun (fun c => isDigitOr_ c || ('a' ≤ c && c ≤ 'f') || ('A' ≤ c && c ≤ 'F')) cs
  | '0' :: cs => isRun (fun c => ('0' ≤ c && c ≤ '7') || c == '_') cs
  | c :: cs =>
    c.isDigit &&
      match cs.dropWhile isDigitOr_ with
      | [] => true
      | rest => (skipSexagesimal? rest) == some []
  | [] => false

def isInt (cs : List Char) : Bool := isUnsignedInt (dropSign (trimEnd cs))

/-- Whether a text is an exponent with its sign, or empty. -/
def isExponent : List Char → Bool
  | [] => true
  | e :: sign :: cs =>
    (e == 'e' || e == 'E') && (sign == '-' || sign == '+') && isRun Char.isDigit cs
  | _ => false

/-- The form of a float that begins with a digit. -/
def isDigitFloat : List Char → Bool
  | [] => false
  | c :: cs =>
    c.isDigit &&
      match cs.dropWhile isDigitOr_ with
      | '.' :: cs => isExponent (cs.dropWhile isDigitOr_)
      | rest =>
        match skipSexagesimal? rest with
        | some ('.' :: cs) => cs.all isDigitOr_
        | _ => false

/-- The form of a float that begins with its point. -/
def isPointFloat : List Char → Bool
  | '.' :: c :: cs => c.isDigit && isExponent (cs.dropWhile isDigitOr_)
  | _ => false

def isFloat (cs : List Char) : Bool :=
  let cs := trimEnd cs
  isPointFloat cs || isOneOf [".nan", ".NaN", ".NAN"] cs || isDigitFloat (dropSign cs) ||
    isOneOf [".inf", ".Inf", ".INF"] (dropSign cs)

/-- One or two digits, and what follows them. -/
def takeDigits (least most : Nat) (cs : List Char) : Option (List Char × List Char) :=
  let digits := (cs.take most).takeWhile Char.isDigit
  if least ≤ digits.length then some (digits, cs.drop digits.length) else none

/-- What follows a given character. -/
def takeChar (c : Char) : List Char → Option (List Char)
  | d :: cs => if d = c then some cs else none
  | [] => none

/-- The parts of a time stamp as they are written. -/
structure Stamp where
  year : List Char
  month : List Char
  day : List Char
  /-- Hour, minute, second and the digits of the fraction. -/
  time : Option (List Char × List Char × List Char × List Char)
  /-- Universal time, or the sign, the hours and the minutes of a zone. -/
  zone : Option (Option (Bool × List Char × List Char))
  deriving Repr

/-- A zone, which may be missing, up to the end. -/
def readZone? (cs : List Char) : Option (Option (Option (Bool × List Char × List Char))) :=
  match cs.dropWhile fun c => c == ' ' || c == '\t' with
  | [] => if cs.isEmpty then some none else none
  | ['Z'] => some (some none)
  | sign :: rest =>
    if sign = '-' ∨ sign = '+' then do
      let (hours, rest) ← takeDigits 1 2 rest
      match rest with
      | [] => some (some (some (sign = '-', hours, [])))
      | rest => do
        let (minutes, rest) ← takeDigits 2 2 (← takeChar ':' rest)
        if rest.isEmpty then some (some (some (sign = '-', hours, minutes))) else none
    else none

/-- The gap between date and time. -/
def skipTimeMark? : List Char → Option (List Char)
  | c :: cs =>
    if c = 'T' ∨ c = 't' then some cs
    else if c = ' ' ∨ c = '\t' then some (cs.dropWhile fun c => c == ' ' || c == '\t')
    else none
  | [] => none

/-- Reads a time stamp: a date, which a time of day and a zone may follow. -/
def readStamp? (cs : List Char) : Option Stamp := do
  let (year, rest) ← takeDigits 4 4 (trimEnd cs)
  let (month, rest) ← takeDigits 1 2 (← takeChar '-' rest)
  let (day, rest) ← takeDigits 1 2 (← takeChar '-' rest)
  if rest.isEmpty then some ⟨year, month, day, none, none⟩
  else do
    let (hour, rest) ← takeDigits 1 2 (← skipTimeMark? rest)
    let (minute, rest) ← takeDigits 2 2 (← takeChar ':' rest)
    let (second, rest) ← takeDigits 2 2 (← takeChar ':' rest)
    let (fraction, rest) := match rest with
      | '.' :: rest => (rest.takeWhile Char.isDigit, rest.dropWhile Char.isDigit)
      | rest => ([], rest)
    let zone ← readZone? rest
    some ⟨year, month, day, some (hour, minute, second, fraction), zone⟩

/-- Whether a plain scalar is a time stamp: a date alone has two digits for month and day. -/
def isStamp (cs : List Char) : Bool :=
  match readStamp? cs with
  | none => false
  | some s => s.time.isSome || (s.month.length == 2 && s.day.length == 2)

/-- The tag of a plain scalar. -/
def Tag.ofPlain (cs : List Char) : Tag :=
  if isOneOf boolWords cs then .bool
  else if isFloat cs then .float
  else if isInt cs then .int
  else if isOneOf ["<<"] cs then .merge
  else if isNull cs then .null
  else if isStamp cs then .timestamp
  else if isOneOf ["="] cs then .default
  else if isOneOf ["!", "&", "*"] cs then .unknown (tagPrefix ++ "yaml")
  else .text

end ToolchainChoice.Yaml
