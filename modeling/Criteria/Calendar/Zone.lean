import Criteria.Calendar.Date

/-!
Time zones. A zone keeps a standard offset, and one hour more from a Sunday in spring
to a Sunday in autumn if it has summer time. The clock goes from one to the other at
an hour that it shows itself: an hour is skipped in spring and one repeated in autumn.
`offsetAt` takes a clock that shows a skipped hour to be still on standard time, and
one that shows a repeated hour to be still on summer time.
-/
namespace Criteria.Calendar

/-- The zones that a clock can be set to. -/
inductive Zone where
  | utc
  | kolkata
  | newYork
  | london
deriving DecidableEq, Repr

/-- When summer time starts and ends: the day in each year, and the hour that the clock shows just
before it is changed. -/
structure SummerTime where
  startDay : Int → Int
  startHour : Nat
  stopDay : Int → Int
  stopHour : Nat

/-- The number of the Sunday on a day or next after it. -/
def sundayFrom (n : Int) : Int := n + (6 - weekday n : Nat)

namespace Zone

/-- The name of a zone. -/
def name : Zone → String
  | utc => "UTC"
  | kolkata => "Asia/Kolkata"
  | newYork => "America/New_York"
  | london => "Europe/London"

/-- The zone of a name. -/
def ofName? (s : String) : Option Zone := [utc, kolkata, newYork, london].find? (·.name == s)

/-- The standard offset of a zone. -/
def standard : Zone → Offset
  | utc | london => .utc
  | kolkata => ⟨19800000000, by decide, by decide⟩
  | newYork => ⟨-18000000000, by decide, by decide⟩

/-- The offset of a zone in summer. -/
def summer : Zone → Offset
  | utc => .utc
  | kolkata => ⟨19800000000, by decide, by decide⟩
  | newYork => ⟨-14400000000, by decide, by decide⟩
  | london => ⟨3600000000, by decide, by decide⟩

/-- The summer time of a zone: from the second Sunday of March to the first of November in New York,
from the last Sunday of March to the last of October in London. -/
def summerTime? : Zone → Option SummerTime
  | utc | kolkata => none
  | newYork => some ⟨fun y => sundayFrom (dayNumber y 3 8), 2, fun y => sundayFrom (dayNumber y 11 1), 2⟩
  | london => some ⟨fun y => sundayFrom (dayNumber y 3 25), 1, fun y => sundayFrom (dayNumber y 10 25), 2⟩

/-- The microseconds since day 0 at an hour of a day. -/
def hourOf (day : Int) (hour : Nat) : Int := day * microsPerDay + hour * 3600000000

/-- Whether a clock that shows the given date and time is on summer time. -/
def isSummerOn (z : Zone) (date : Date) (time : TimeOfDay) : Bool :=
  match z.summerTime? with
  | none => false
  | some s =>
    let shown := date.number * microsPerDay + time.micros
    hourOf (s.startDay date.year) (s.startHour + 1) ≤ shown &&
      shown < hourOf (s.stopDay date.year) s.stopHour

/-- Whether summer time holds at an instant, in microseconds of universal time, of the given year. -/
def isSummerAt (z : Zone) (year : Int) (instant : Int) : Bool :=
  match z.summerTime? with
  | none => false
  | some s =>
    hourOf (s.startDay year) s.startHour - z.standard.micros ≤ instant &&
      instant < hourOf (s.stopDay year) s.stopHour - z.summer.micros

/-- The offset of a clock that shows the given date and time. -/
def offsetAt (z : Zone) (date : Date) (time : TimeOfDay) : Offset :=
  if z.isSummerOn date time then z.summer else z.standard

/-- What a clock of the zone shows at the instant of a moment. -/
def clockAt (z : Zone) (m : Moment) : Except Fault Moment :=
  let year := yearOf ((m.instant + z.standard.micros) / microsPerDay)
  let offset := if z.isSummerAt year m.instant then z.summer else z.standard
  Moment.ofWallMicros (m.instant + offset.micros) (some offset)

end Zone

end Criteria.Calendar
