/-!
# Calendar dates

Dates of the Gregorian calendar with years from 1 to 9999. A `Date` carries the proof that its day
exists, so a date is made from three numbers by `Date.ofNumbers?` only.
-/
namespace ToolchainChoice.Calendar

def isLeap (year : Nat) : Bool :=
  year % 4 = 0 && (year % 100 ≠ 0 || year % 400 = 0)

def daysIn (year month : Nat) : Nat :=
  if month = 2 then if isLeap year then 29 else 28
  else if month = 4 ∨ month = 6 ∨ month = 9 ∨ month = 11 then 30
  else 31

def Exists (year month day : Nat) : Prop :=
  (1 ≤ year ∧ year ≤ 9999) ∧ (1 ≤ month ∧ month ≤ 12) ∧ 1 ≤ day ∧ day ≤ daysIn year month

instance (year month day : Nat) : Decidable (Exists year month day) :=
  inferInstanceAs (Decidable (_ ∧ _))

structure Date where
  year : Nat
  month : Nat
  day : Nat
  exists_day : Exists year month day
  deriving DecidableEq, Repr

instance : Inhabited Date := ⟨⟨1, 1, 1, by decide⟩⟩

def Date.ofNumbers? (year month day : Nat) : Option Date :=
  if h : Exists year month day then some ⟨year, month, day, h⟩ else none

/-- The number of days before a year. -/
def daysBeforeYear (year : Nat) : Nat :=
  let y := year - 1
  365 * y + y / 4 - y / 100 + y / 400

/-- The number of days in the first `months` months of a year. -/
def daysInMonths (year : Nat) : (months : Nat) → Nat
  | 0 => 0
  | months + 1 => daysInMonths year months + daysIn year (months + 1)

/-- The place of a date in the sequence of all dates; 1 January of year 1 has number 1. -/
def Date.ordinal (d : Date) : Nat :=
  daysBeforeYear d.year + daysInMonths d.year (d.month - 1) + d.day

/-- A number in at least `width` digits. -/
def padded (width n : Nat) : List Char :=
  let ds := Nat.toDigits 10 n
  List.replicate (width - ds.length) '0' ++ ds

/-- Year, month and day with hyphens between them. -/
def Date.isoText (d : Date) : List Char :=
  padded 4 d.year ++ '-' :: padded 2 d.month ++ '-' :: padded 2 d.day

end ToolchainChoice.Calendar
