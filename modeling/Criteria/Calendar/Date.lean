import Criteria.Calendar.Fault
import Criteria.Calendar.Gregorian

/-!
Dates of the years 1 to 9999, times of day in microseconds, and moments: a date and
a time, with or without an offset from universal time. A value of these types is in
range by construction; `Date.of` and `TimeOfDay.of` name the first part that is not.
-/
namespace Criteria.Calendar

/-- Whether numbers are the year, month and day of a date. -/
def IsDate (year month day : Nat) : Prop :=
  (1 ≤ year ∧ year ≤ 9999) ∧ (1 ≤ month ∧ month ≤ 12) ∧ 1 ≤ day ∧ day ≤ monthLength year month

instance (year month day : Nat) : Decidable (IsDate year month day) :=
  inferInstanceAs (Decidable (_ ∧ _))

/-- A date of the years 1 to 9999. -/
structure Date where
  year : Nat
  month : Nat
  day : Nat
  isDate : IsDate year month day
deriving DecidableEq, Repr

namespace Date

/-- The date with the given year, month and day. -/
def of (year : Int) (month day : Nat) : Except Fault Date :=
  if year < 1 || 9999 < year then .error (.year year)
  else if month < 1 || 12 < month then .error .month
  else if h : IsDate year.toNat month day then .ok ⟨year.toNat, month, day, h⟩
  else .error .day

/-- The number of a date's day. -/
def number (d : Date) : Int := dayNumber d.year d.month d.day

/-- The date of a day, if it lies in the years 1 to 9999. -/
def ofNumber? (n : Int) : Option Date :=
  let (year, month, day) := civil n
  if h : 1 ≤ year ∧ IsDate year.toNat month day then some ⟨year.toNat, month, day, h.2⟩ else none

/-- The date that lies the given number of days later. -/
def addDays (d : Date) (days : Int) : Except Fault Date :=
  match ofNumber? (d.number + days) with
  | some e => .ok e
  | none => .error .beyond

/-- The day of the week, Monday being 0. -/
def weekday (d : Date) : Nat := Calendar.weekday d.number

end Date

/-- A time of day. -/
structure TimeOfDay where
  hour : Fin 24
  minute : Fin 60
  second : Fin 60
  micro : Fin 1000000
deriving DecidableEq, Repr

namespace TimeOfDay

/-- The start of a day. -/
def midnight : TimeOfDay := ⟨0, 0, 0, 0⟩

/-- The time with the given hour, minute and second; the microseconds are taken as they are. -/
def of (hour minute second : Nat) (micro : Fin 1000000) : Except Fault TimeOfDay :=
  if h : hour < 24 then
    if m : minute < 60 then
      if s : second < 60 then .ok ⟨⟨hour, h⟩, ⟨minute, m⟩, ⟨second, s⟩, micro⟩
      else .error .second
    else .error .minute
  else .error .hour

/-- The microseconds since midnight. -/
def micros (t : TimeOfDay) : Nat :=
  ((t.hour.val * 60 + t.minute.val) * 60 + t.second.val) * 1000000 + t.micro.val

/-- The time that lies the given number of microseconds after midnight; whole days are dropped. -/
def ofMicros (n : Nat) : TimeOfDay :=
  ⟨Fin.ofNat 24 (n / 3600000000), Fin.ofNat 60 (n / 60000000), Fin.ofNat 60 (n / 1000000),
    Fin.ofNat 1000000 n⟩

end TimeOfDay

/-- The microseconds of a day. -/
def microsPerDay : Int := 86400000000

/-- An offset from universal time, in microseconds: less than a day, east being positive. -/
structure Offset where
  micros : Int
  lower : -microsPerDay < micros
  upper : micros < microsPerDay
deriving DecidableEq, Repr

namespace Offset

/-- Universal time. -/
def utc : Offset := ⟨0, by decide, by decide⟩

/-- The offset of the given number of microseconds. -/
def of (micros : Int) : Except Fault Offset :=
  if h : -microsPerDay < micros ∧ micros < microsPerDay then .ok ⟨micros, h.1, h.2⟩
  else .error (.offset micros)

end Offset

/-- A date and a time of day, with the offset from universal time that a clock there shows, if it is
known. -/
structure Moment where
  date : Date
  time : TimeOfDay
  offset : Option Offset
deriving DecidableEq, Repr

namespace Moment

/-- The midnight at which the day of a moment starts. -/
def startOfDay (m : Moment) : Moment := { m with time := .midnight }

/-- The moment the given number of days later on the same clock. -/
def addDays (m : Moment) (days : Int) : Except Fault Moment := do
  return { m with date := ← m.date.addDays days }

/-- The microseconds since day 0 that the clock shows. -/
def wallMicros (m : Moment) : Int := m.date.number * microsPerDay + m.time.micros

/-- The microseconds since day 0 in universal time; without an offset the clock is taken to show it. -/
def instant (m : Moment) : Int := m.wallMicros - (m.offset.map (·.micros)).getD 0

/-- The moment at which a clock of the given offset shows the given microseconds since day 0. -/
def ofWallMicros (n : Int) (offset : Option Offset) : Except Fault Moment :=
  match Date.ofNumber? (n / microsPerDay) with
  | some date => .ok ⟨date, TimeOfDay.ofMicros (n % microsPerDay).toNat, offset⟩
  | none => .error .beyond

end Moment

end Criteria.Calendar
