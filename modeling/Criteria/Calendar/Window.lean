import Criteria.Calendar.Zone

/-!
Windows of time relative to now. The calendar windows run from midnight to midnight
on the clock of now and start their weeks on Sunday; the rolling ones end at now. A
window holds its start and not its end.
-/
namespace Criteria.Calendar

/-- The present moment, and the zone of the clock that shows it. Without a zone the clock keeps its
offset at all times. -/
structure Now where
  moment : Moment
  zone : Option Zone
deriving DecidableEq, Repr

namespace Now

/-- The present moment on a clock that keeps its offset. -/
def ofMoment (m : Moment) : Now := ⟨m, none⟩

/-- What a zone's clock shows at the instant of a moment. -/
def inZone (z : Zone) (m : Moment) : Except Fault Now := do return ⟨← z.clockAt m, some z⟩

/-- The moment at which the clock shows another date and time. -/
def momentAt (now : Now) (date : Date) (time : TimeOfDay) : Moment :=
  ⟨date, time, match now.zone with
    | none => now.moment.offset
    | some z => some (z.offsetAt date time)⟩

/-- The midnight at which a date starts. -/
def midnight (now : Now) (date : Date) : Moment := now.momentAt date .midnight

end Now

/-- A window of time: from its start up to its end. -/
structure Window where
  start : Moment
  stop : Moment
deriving DecidableEq, Repr

/-- The windows that have a name. -/
inductive RelativeWindow where
  | today
  | yesterday
  | thisWeek
  | lastWeek
  | thisMonth
  | lastMonth
  | last7Days
  | last30Days
  | last90Days
deriving DecidableEq, Repr

namespace RelativeWindow

/-- All windows, in the order in which they are offered. -/
def all : List RelativeWindow :=
  [today, yesterday, thisWeek, lastWeek, thisMonth, lastMonth, last7Days, last30Days, last90Days]

/-- The name of a window. -/
def name : RelativeWindow → String
  | today => "today"
  | yesterday => "yesterday"
  | thisWeek => "this_week"
  | lastWeek => "last_week"
  | thisMonth => "this_month"
  | lastMonth => "last_month"
  | last7Days => "last_7_days"
  | last30Days => "last_30_days"
  | last90Days => "last_90_days"

/-- The window of a name. -/
def ofName? (s : String) : Option RelativeWindow := all.find? (·.name == s)

/-- The days since the Sunday on which the week of a date starts. -/
def daysIntoWeek (d : Date) : Nat := (d.weekday + 1) % 7

/-- The first day of a month; the month may lie one before the first or after the last of the year. -/
def firstOfMonth (year : Int) (month : Nat) : Except Fault Date :=
  if month < 1 then Date.of (year - 1) 12 1
  else if 12 < month then Date.of (year + 1) 1 1
  else Date.of year month 1

/-- The window between the midnights at which two dates start. -/
def between (now : Now) (start stop : Date) : Window := ⟨now.midnight start, now.midnight stop⟩

/-- The window of the given number of days up to now. -/
def rolling (now : Now) (days : Nat) : Except Fault Window := do
  let start ← now.moment.date.addDays (-(days : Int))
  return ⟨now.momentAt start now.moment.time, now.moment⟩

/-- The window at the given present moment. -/
def resolve (w : RelativeWindow) (now : Now) : Except Fault Window := do
  let date := now.moment.date
  match w with
  | today => return between now date (← date.addDays 1)
  | yesterday => return between now (← date.addDays (-1)) date
  | thisWeek =>
    let sunday ← date.addDays (-(daysIntoWeek date : Int))
    return between now sunday (← sunday.addDays 7)
  | lastWeek =>
    let sunday ← date.addDays (-(daysIntoWeek date : Int))
    let before ← sunday.addDays (-7)
    return between now before (← before.addDays 7)
  | thisMonth =>
    let first ← firstOfMonth date.year date.month
    return between now first (← firstOfMonth date.year (date.month + 1))
  | lastMonth =>
    let before ← firstOfMonth date.year (date.month - 1)
    return between now before (← firstOfMonth date.year date.month)
  | last7Days => rolling now 7
  | last30Days => rolling now 30
  | last90Days => rolling now 90

theorem ofName?_name (w : RelativeWindow) : ofName? w.name = some w := by cases w <;> decide

theorem ofName?_eq_some_iff {s : String} {w : RelativeWindow} : ofName? s = some w ↔ w.name = s := by
  constructor
  · intro found
    simpa using List.find?_some found
  · rintro rfl
    exact ofName?_name w

end RelativeWindow

end Criteria.Calendar
