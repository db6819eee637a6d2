import Mathlib.Algebra.Group.Nat.Defs
import Mathlib.Tactic.SplitIfs
import ToolchainChoice.Calendar.Moment
import ToolchainChoice.Proofs.Number.Digits
import ToolchainChoice.Yaml.Scalar

/-!
# Reading a moment back

The ISO form of a moment is a time stamp, and it denotes that moment: with or without a fraction, in a
known zone or in none. An offset must be less than a day for this, as it is in every moment that is
made from its numbers.
-/
namespace ToolchainChoice.Calendar

open Number (digitsValue)
open Yaml (takeDigits takeChar readZone? readStamp? stampValue trimEnd)

/-! ## Fields of digits -/

/-- A number in exactly `width` digits. -/
structure IsField (width n : Nat) (ds : List Char) : Prop where
  digits : ∀ c ∈ ds, c.isDigit = true
  length : ds.length = width
  value : digitsValue ds = n

variable {width n : Nat} {ds rest : List Char} {m : Moment}

theorem padded_eq_digitsBehind (width n : Nat) :
    padded width n = Number.digitsBehind (width - (Nat.toDigits 10 n).length) n := rfl

theorem isDigit_of_mem_padded : ∀ c ∈ padded width n, c.isDigit = true := by
  rw [padded_eq_digitsBehind]
  exact Number.isDigit_of_mem_digitsBehind

theorem isField_padded (hwidth : 0 < width) (h : n < 10 ^ width) :
    IsField width n (padded width n) where
  digits := isDigit_of_mem_padded
  length := by
    have hlength := (Nat.length_toDigits_le_iff (b := 10) (by decide) hwidth).mpr h
    unfold padded
    rw [List.length_append, List.length_replicate]
    omega
  value := by
    rw [padded_eq_digitsBehind, Number.digitsValue_digitsBehind]

/-- Digits end where something else begins. -/
theorem takeWhile_digits (hds : ∀ c ∈ ds, c.isDigit = true)
    (hrest : ∀ c ∈ rest.head?, c.isDigit = false) :
    (ds ++ rest).takeWhile Char.isDigit = ds ∧ (ds ++ rest).dropWhile Char.isDigit = rest := by
  rw [List.takeWhile_append_of_pos hds, List.dropWhile_append_of_pos hds]
  cases rest with
  | nil => simp
  | cons c rest =>
    have hc : ¬c.isDigit = true := by simp [hrest c rfl]
    rw [List.takeWhile_cons_of_neg hc, List.dropWhile_cons_of_neg hc, List.append_nil]
    exact ⟨rfl, rfl⟩

theorem IsField.takeDigits (h : IsField width n ds) (least : Nat) (hleast : least ≤ width)
    (rest : List Char) :
    takeDigits least width (ds ++ rest) = some (ds, rest) := by
  have htake : ((ds ++ rest).take width).takeWhile Char.isDigit = ds := by
    have hend : ∀ c ∈ ([] : List Char).head?, c.isDigit = false := by simp
    have hall := (takeWhile_digits h.digits hend).1
    rw [List.append_nil] at hall
    rw [← h.length, List.take_left]
    exact hall
  unfold Yaml.takeDigits
  dsimp only
  rw [htake, h.length, if_pos hleast, ← h.length, List.drop_left]

/-! ## Date, time and zone -/

theorem isField_year (d : Date) : IsField 4 d.year (padded 4 d.year) :=
  isField_padded (by decide) (Nat.lt_succ_of_le d.exists_day.1.2)

theorem isField_month (d : Date) : IsField 2 d.month (padded 2 d.month) := by
  have hmonth := d.exists_day.2.1.2
  exact isField_padded (by decide) (by omega)

theorem isField_day (d : Date) : IsField 2 d.day (padded 2 d.day) := by
  have hday := d.exists_day.2.2.2
  have hmost : daysIn d.year d.month ≤ 31 := by
    unfold daysIn
    split_ifs <;> omega
  exact isField_padded (by decide) (by omega)

theorem isField_sixty (h : n < 60) : IsField 2 n (padded 2 n) :=
  isField_padded (by decide) (by omega)

theorem isField_hour (m : Moment) : IsField 2 m.hour (padded 2 m.hour) :=
  isField_sixty (Nat.lt_trans m.hour_lt (by decide))

theorem isField_microsecond (m : Moment) : IsField 6 m.microsecond (padded 6 m.microsecond) :=
  isField_padded (by decide) m.microsecond_lt

/-- The fraction of a second as it is written, with its point. -/
def Moment.fractionText (m : Moment) : List Char :=
  if m.microsecond = 0 then [] else '.' :: padded 6 m.microsecond

/-- The digits of the fraction. -/
def Moment.fraction (m : Moment) : List Char :=
  if m.microsecond = 0 then [] else padded 6 m.microsecond

def Moment.zoneText (m : Moment) : List Char :=
  match m.offset with
  | none => []
  | some minutes => offsetText minutes

def Moment.zone (m : Moment) : Option (Option (Bool × List Char × List Char)) :=
  m.offset.map fun minutes =>
    some (decide (minutes < 0), padded 2 (minutes.natAbs / 60), padded 2 (minutes.natAbs % 60))

theorem Moment.isoText_eq (m : Moment) :
    m.isoText 'T' = padded 4 m.date.year ++ '-' :: (padded 2 m.date.month ++ '-' ::
      (padded 2 m.date.day ++ 'T' :: (padded 2 m.hour ++ ':' :: (padded 2 m.minute ++ ':' ::
        (padded 2 m.second ++ (m.fractionText ++ m.zoneText)))))) := by
  have hparts : m.isoText 'T' = m.date.isoText ++ 'T' :: m.timeText ++ m.zoneText := rfl
  rw [hparts]
  simp only [Date.isoText, timeText, fractionText, List.append_assoc, List.cons_append]

theorem Moment.microseconds_fraction (m : Moment) : Yaml.microseconds m.fraction = m.microsecond := by
  unfold fraction
  split
  · rename_i hzero
    rw [hzero]
    rfl
  · have hfield := isField_microsecond m
    have htake : (padded 6 m.microsecond).take 6 = padded 6 m.microsecond :=
      List.take_of_length_le (Nat.le_of_eq hfield.length)
    unfold Yaml.microseconds
    dsimp only
    rw [htake, hfield.length, hfield.value]
    exact Nat.mul_one _

/-- An offset is less than a day. -/
def Moment.OffsetFits (m : Moment) : Prop :=
  ∀ minutes ∈ m.offset, -1440 < minutes ∧ minutes < 1440

theorem Moment.offsetFits_of_utc (h : m.offset = some 0) : m.OffsetFits := by
  intro minutes hminutes
  rw [h] at hminutes
  obtain rfl := Option.some.inj hminutes
  decide

/-- An offset that fits has two digits for its hours and two for its minutes. -/
theorem Moment.OffsetFits.isField {minutes : Int} (h : m.OffsetFits)
    (hoffset : m.offset = some minutes) :
    IsField 2 (minutes.natAbs / 60) (padded 2 (minutes.natAbs / 60)) ∧
      IsField 2 (minutes.natAbs % 60) (padded 2 (minutes.natAbs % 60)) := by
  obtain ⟨hl, hu⟩ := h minutes hoffset
  exact ⟨isField_sixty (by omega), isField_sixty (by omega)⟩

theorem Moment.zoneMinutes_zone (h : m.OffsetFits) : m.zone.map Yaml.zoneMinutes = m.offset := by
  unfold zone
  cases hoffset : m.offset with
  | none => rfl
  | some minutes =>
    obtain ⟨hhours, hminutes⟩ := h.isField hoffset
    simp only [Option.map_some, Yaml.zoneMinutes, Yaml.natOf, hhours.value, hminutes.value,
      Number.signed]
    by_cases hneg : minutes < 0
    · rw [decide_eq_true hneg, if_pos rfl]
      exact congrArg some (by omega)
    · rw [decide_eq_false hneg, if_neg (by decide)]
      exact congrArg some (by omega)

theorem readZone?_sign {sign : Char} {hour minute : Nat} {hours minutes : List Char}
    (hsign : sign = '-' ∨ sign = '+') (hhours : IsField 2 hour hours)
    (hminutes : IsField 2 minute minutes) :
    readZone? (sign :: (hours ++ ':' :: minutes)) =
      some (some (some (decide (sign = '-'), hours, minutes))) := by
  have hblank : (sign :: (hours ++ ':' :: minutes)).dropWhile (fun c => c == ' ' || c == '\t') =
      sign :: (hours ++ ':' :: minutes) := by
    refine List.dropWhile_cons_of_neg ?_
    rcases hsign with rfl | rfl <;> decide
  have hread := hhours.takeDigits 1 (by decide) (':' :: minutes)
  have hread' := hminutes.takeDigits 2 (by decide) []
  have hcolon : takeChar ':' (':' :: minutes) = some minutes := rfl
  rw [List.append_nil] at hread'
  unfold readZone?
  rw [hblank]
  split
  · contradiction
  · rename_i heq
    obtain rfl := (List.cons.inj heq).1
    rcases hsign with hsign | hsign <;> contradiction
  · rename_i heq
    obtain ⟨rfl, rfl⟩ := List.cons.inj heq
    rw [if_pos hsign, hread]
    simp only [Option.bind_eq_bind, Option.bind_some, hcolon, hread', List.isEmpty_nil, if_true]

theorem readZone?_zoneText (h : m.OffsetFits) : readZone? m.zoneText = some m.zone := by
  unfold Moment.zoneText Moment.zone
  cases hoffset : m.offset with
  | none => rfl
  | some minutes =>
    obtain ⟨hhours, hminutes⟩ := h.isField hoffset
    by_cases hneg : minutes < 0
    · have hread := readZone?_sign (.inl rfl) hhours hminutes
      simpa [offsetText, hneg] using hread
    · have hread := readZone?_sign (.inr rfl) hhours hminutes
      simpa [offsetText, hneg] using hread

/-! ## The whole stamp -/

theorem trimEnd_eq_self {cs : List Char} (h : '\n' ∉ cs) : trimEnd cs = cs := by
  unfold trimEnd
  split
  · rename_i hlast
    exact absurd (List.mem_of_getLast? hlast) h
  · rfl

theorem IsField.newline_notMem (h : IsField width n ds) : '\n' ∉ ds := by
  intro hmem
  have hdigit := h.digits _ hmem
  contradiction

theorem newline_notMem_fractionText (m : Moment) : '\n' ∉ m.fractionText := by
  unfold Moment.fractionText
  split
  · exact List.not_mem_nil
  · simpa using (isField_microsecond m).newline_notMem

theorem newline_notMem_zoneText (h : m.OffsetFits) : '\n' ∉ m.zoneText := by
  unfold Moment.zoneText
  cases hoffset : m.offset with
  | none => exact List.not_mem_nil
  | some minutes =>
    obtain ⟨hhours, hminutes⟩ := h.isField hoffset
    by_cases hneg : minutes < 0 <;>
      simp [offsetText, hneg, hhours.newline_notMem, hminutes.newline_notMem]

theorem newline_notMem_isoText (h : m.OffsetFits) : '\n' ∉ m.isoText 'T' := by
  rw [m.isoText_eq]
  simp [(isField_year m.date).newline_notMem, (isField_month m.date).newline_notMem,
    (isField_day m.date).newline_notMem, (isField_hour m).newline_notMem,
    (isField_sixty m.minute_lt).newline_notMem, (isField_sixty m.second_lt).newline_notMem,
    newline_notMem_fractionText m, newline_notMem_zoneText h]

/-- A zone does not begin with a digit or a point. -/
theorem head?_zoneText (m : Moment) : ∀ c ∈ m.zoneText.head?, c.isDigit = false ∧ c ≠ '.' := by
  unfold Moment.zoneText
  cases m.offset with
  | none => simp
  | some minutes => by_cases hneg : minutes < 0 <;> simp [offsetText, hneg]

/-- The digits of the fraction are separated from what follows the seconds. -/
theorem fraction_split (m : Moment) :
    (match m.fractionText ++ m.zoneText with
      | '.' :: rest => (rest.takeWhile Char.isDigit, rest.dropWhile Char.isDigit)
      | rest => ([], rest)) = (m.fraction, m.zoneText) := by
  have hhead := head?_zoneText m
  unfold Moment.fractionText Moment.fraction
  split_ifs with hzero
  · rw [List.nil_append]
    split
    · rename_i heq
      rw [heq] at hhead
      exact absurd rfl (hhead '.' rfl).2
    · rfl
  · obtain ⟨htake, hdrop⟩ := takeWhile_digits (isField_microsecond m).digits fun c hc => (hhead c hc).1
    exact Prod.ext htake hdrop

theorem readStamp?_isoText (h : m.OffsetFits) :
    readStamp? (m.isoText 'T') = some {
      year := padded 4 m.date.year
      month := padded 2 m.date.month
      day := padded 2 m.date.day
      time := some (padded 2 m.hour, padded 2 m.minute, padded 2 m.second, m.fraction)
      zone := m.zone } := by
  -- what is left after the seconds
  have hlast : ∀ parts : List Char × List Char, parts = (m.fraction, m.zoneText) →
      ((readZone? parts.2).bind fun zone => some (Yaml.Stamp.mk (padded 4 m.date.year)
        (padded 2 m.date.month) (padded 2 m.date.day)
        (some (padded 2 m.hour, padded 2 m.minute, padded 2 m.second, parts.1)) zone)) =
      some (Yaml.Stamp.mk (padded 4 m.date.year) (padded 2 m.date.month) (padded 2 m.date.day)
        (some (padded 2 m.hour, padded 2 m.minute, padded 2 m.second, m.fraction)) m.zone) := by
    rintro _ rfl
    rw [readZone?_zoneText h]
    rfl
  have hchar : ∀ c rest, takeChar c (c :: rest) = some rest := fun c rest => if_pos rfl
  have hmark : ∀ rest, Yaml.skipTimeMark? ('T' :: rest) = some rest := fun rest => rfl
  unfold readStamp?
  rw [trimEnd_eq_self (newline_notMem_isoText h), m.isoText_eq]
  simp only [(isField_year m.date).takeDigits 4 (by decide), Option.bind_eq_bind, Option.bind_some,
    hchar, (isField_month m.date).takeDigits 1 (by decide),
    (isField_day m.date).takeDigits 1 (by decide), List.isEmpty_cons, hmark,
    (isField_hour m).takeDigits 1 (by decide), (isField_sixty m.minute_lt).takeDigits 2 (by decide),
    (isField_sixty m.second_lt).takeDigits 2 (by decide)]
  rw [if_neg (by decide)]
  exact hlast _ (fraction_split m)

theorem date_ofNumbers? (d : Date) : Date.ofNumbers? d.year d.month d.day = some d :=
  dif_pos d.exists_day

theorem moment_ofNumbers? (h : m.OffsetFits) :
    Moment.ofNumbers? m.date.year m.date.month m.date.day m.hour m.minute m.second m.microsecond
      m.offset = some m := by
  have htime : m.hour < 24 ∧ m.minute < 60 ∧ m.second < 60 ∧ m.microsecond < 1000000 :=
    ⟨m.hour_lt, m.minute_lt, m.second_lt, m.microsecond_lt⟩
  have hoffset : (m.offset.all fun minutes => -1440 < minutes && minutes < 1440) = true := by
    cases ho : m.offset with
    | none => rfl
    | some minutes => simpa using h minutes ho
  unfold Moment.ofNumbers?
  rw [dif_pos htime, if_pos hoffset, date_ofNumbers?]
  rfl

/-- The ISO form of a moment denotes the moment. -/
theorem stampValue_isoText (h : m.OffsetFits) : stampValue (m.isoText 'T') = .ok (.moment m) := by
  unfold stampValue
  rw [readStamp?_isoText h]
  simp only [Yaml.natOf, (isField_year m.date).value, (isField_month m.date).value,
    (isField_day m.date).value, (isField_hour m).value, (isField_sixty m.minute_lt).value,
    (isField_sixty m.second_lt).value, m.microseconds_fraction, m.zoneMinutes_zone h,
    moment_ofNumbers? h, Option.map_some]

end ToolchainChoice.Calendar
