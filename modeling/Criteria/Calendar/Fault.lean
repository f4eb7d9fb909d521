import Criteria.Text.Quoted

/-!
What can be wrong with a date. A text may not have the form of a date, a part of it
may be out of its range, or a computation may leave the years 1 to 9999.
-/
namespace Criteria.Calendar

/-- Why there is no such date. -/
inductive Fault where
  /-- The text is not written as a date. -/
  | malformed (text : String)
  /-- The offset from universal time, in microseconds, is a day or more. -/
  | offset (micros : Int)
  | year (n : Int)
  | month
  | day
  | hour
  | minute
  | second
  /-- A day before the first or after the last one that has a date. -/
  | beyond
deriving DecidableEq, Repr

/-- The parts of a span of time that are not zero, the days rounded down. -/
def spanParts (micros : Int) : List String :=
  let days := micros / 86400000000
  let seconds := micros / 1000000 % 86400
  let rest := micros % 1000000
  [("days", days), ("seconds", seconds), ("microseconds", rest)].filterMap fun (name, n) =>
    if n == 0 then none else some (name ++ "=" ++ toString n)

/-- The words for a fault. -/
def Fault.message : Fault → String
  | .malformed text => "Invalid isoformat string: " ++ Text.quoted text
  | .offset micros =>
    "offset must be a timedelta strictly between -timedelta(hours=24) and timedelta(hours=24), " ++
      "not datetime.timedelta(" ++ ", ".intercalate (spanParts micros) ++ ")."
  | .year n => "year " ++ toString n ++ " is out of range"
  | .month => "month must be in 1..12"
  | .day => "day is out of range for month"
  | .hour => "hour must be in 0..23"
  | .minute => "minute must be in 0..59"
  | .second => "second must be in 0..59"
  | .beyond => "date value out of range"

end Criteria.Calendar
