import Criteria.Calendar.Date

/-!
Moments written in ISO 8601: `YYYY-MM-DDTHH:MM:SS`, then the microseconds in six
digits if there are any, then the offset if there is one, in hours and minutes and
as much of its seconds and microseconds as it has.
-/
namespace Criteria.Calendar.Iso

/-- The last decimal digit of a number. -/
def digit (n : Nat) : Char := Char.ofNat (48 + n % 10)

/-- The last two decimal digits of a number. -/
def twoDigits (n : Nat) : List Char := [digit (n / 10), digit n]

/-- The last four decimal digits of a number. -/
def fourDigits (n : Nat) : List Char := twoDigits (n / 100) ++ twoDigits n

/-- The last six decimal digits of a number. -/
def sixDigits (n : Nat) : List Char := twoDigits (n / 10000) ++ fourDigits n

/-- A date. -/
def dateChars (d : Date) : List Char :=
  fourDigits d.year ++ '-' :: twoDigits d.month ++ '-' :: twoDigits d.day

/-- Microseconds after a point, unless they are zero. -/
def microChars (n : Nat) : List Char := if n == 0 then [] else '.' :: sixDigits n

/-- A time of day. -/
def timeChars (t : TimeOfDay) : List Char :=
  twoDigits t.hour ++ ':' :: twoDigits t.minute ++ ':' :: twoDigits t.second ++ microChars t.micro

/-- The sign of an offset. -/
def signChar (micros : Int) : Char := if micros < 0 then '-' else '+'

/-- An offset: its sign, hours and minutes, and the seconds unless nothing is left for them. -/
def offsetChars (o : Offset) : List Char :=
  let n := o.micros.natAbs
  let seconds := n / 1000000 % 60
  let micros := n % 1000000
  signChar o.micros :: twoDigits (n / 3600000000) ++ ':' :: twoDigits (n / 60000000 % 60) ++
    if seconds == 0 && micros == 0 then [] else ':' :: twoDigits seconds ++ microChars micros

/-- A date and a time of day. -/
def wallChars (m : Moment) : List Char := dateChars m.date ++ 'T' :: timeChars m.time

/-- A moment. -/
def chars (m : Moment) : List Char :=
  wallChars m ++ (m.offset.map offsetChars).getD []

/-- The text of a moment. -/
def write (m : Moment) : String := String.ofList (chars m)

end Criteria.Calendar.Iso
