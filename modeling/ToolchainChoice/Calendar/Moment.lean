import ToolchainChoice.Calendar.Date

/-!
# Moments

A date with a time of day to the microsecond and, if known, the distance of the local clock from
universal time in minutes. Two texts of a moment are used: the ISO form, which leaves out a
fraction of zero, and the stamp, which is nothing but digits and always has the fraction.
-/
namespace ToolchainChoice.Calendar

structure Moment where
  date : Date
  hour : Nat
  minute : Nat
  second : Nat
  microsecond : Nat
  /-- Minutes ahead of universal time; `none` for a moment in no known zone. -/
  offset : Option Int := none
  hour_lt : hour < 24
  minute_lt : minute < 60
  second_lt : second < 60
  microsecond_lt : microsecond < 1000000
  deriving DecidableEq, Repr

instance : Inhabited Moment :=
  ⟨⟨default, 0, 0, 0, 0, none, by decide, by decide, by decide, by decide⟩⟩

/-- A moment from its numbers. An offset is less than a day. -/
def Moment.ofNumbers? (year month day hour minute second microsecond : Nat)
    (offset : Option Int := none) : Option Moment :=
  if h : hour < 24 ∧ minute < 60 ∧ second < 60 ∧ microsecond < 1000000 then
    if offset.all fun m => -1440 < m && m < 1440 then
      (Date.ofNumbers? year month day).map fun date =>
        ⟨date, hour, minute, second, microsecond, offset, h.1, h.2.1, h.2.2.1, h.2.2.2⟩
    else none
  else none

/-- Sign, hours and minutes of an offset. -/
def offsetText (minutes : Int) : List Char :=
  (if minutes < 0 then '-' else '+') ::
    padded 2 (minutes.natAbs / 60) ++ ':' :: padded 2 (minutes.natAbs % 60)

/-- The time of day, without a fraction of zero. -/
def Moment.timeText (m : Moment) : List Char :=
  padded 2 m.hour ++ ':' :: padded 2 m.minute ++ ':' :: padded 2 m.second ++
    (if m.microsecond = 0 then [] else '.' :: padded 6 m.microsecond)

/-- The ISO form, with `separator` between date and time. -/
def Moment.isoText (separator : Char) (m : Moment) : List Char :=
  m.date.isoText ++ separator :: m.timeText ++
    match m.offset with
    | none => []
    | some minutes => offsetText minutes

/-- The digits of the local date and time down to the microsecond. A year has as many digits as it
needs. -/
def Moment.stamp (m : Moment) : List Char :=
  Nat.toDigits 10 m.date.year ++ padded 2 m.date.month ++ padded 2 m.date.day ++
    padded 2 m.hour ++ padded 2 m.minute ++ padded 2 m.second ++ padded 6 m.microsecond

/-- Microseconds since the first midnight, by the local clock. -/
def Moment.localTicks (m : Moment) : Int :=
  (((m.date.ordinal * 24 + m.hour) * 60 + m.minute) * 60 + m.second) * 1000000 + m.microsecond

/-- Whether two moments name one instant. Moments in known zones are compared in universal time; a
moment in no known zone is never the same as one in a known zone. -/
def Moment.sameInstant (a b : Moment) : Bool :=
  match a.offset, b.offset with
  | none, none => a.localTicks == b.localTicks
  | some x, some y => a.localTicks - x * 60000000 == b.localTicks - y * 60000000
  | _, _ => false

end ToolchainChoice.Calendar
