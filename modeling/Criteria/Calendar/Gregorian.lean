/-!
The Gregorian calendar without bounds. Every day has a number, the first of
January of year 1 being day 1, and the years before it continue the same rules
backwards. `dayNumber` counts the days up to a civil date and `civil` finds the
civil date of a day; `before_yearOf` says that the year it finds is the right one.
-/
namespace Criteria.Calendar

/-- Whether a year has a 29 February. -/
def isLeap (year : Int) : Bool := year % 4 == 0 && (year % 100 != 0 || year % 400 == 0)

/-- The lengths of the months of a year, January first. -/
def monthLengths (leap : Bool) : List Nat :=
  [31, if leap then 29 else 28, 31, 30, 31, 30, 31, 31, 30, 31, 30, 31]

/-- The length of a month, zero if there is no such month. -/
def monthLength (year : Int) (month : Nat) : Nat :=
  if month == 0 then 0 else (monthLengths (isLeap year)).getD (month - 1) 0

/-- The number of days before a year. -/
def daysBeforeYear (year : Int) : Int :=
  365 * (year - 1) + (year - 1) / 4 - (year - 1) / 100 + (year - 1) / 400

/-- The number of days before a month in its year. -/
def daysBeforeMonth (year : Int) (month : Nat) : Nat :=
  ((monthLengths (isLeap year)).take (month - 1)).foldr (· + ·) 0

/-- The number of a day. -/
def dayNumber (year : Int) (month day : Nat) : Int :=
  daysBeforeYear year + daysBeforeMonth year month + day

/-- The year that a day lies in. -/
def yearOf (n : Int) : Int :=
  let guess := 400 * (n - 1) / 146097 + 1
  if n ≤ daysBeforeYear guess then guess - 1
  else if daysBeforeYear (guess + 1) < n then guess + 1
  else guess

/-- The month, counted on from `month`, and the day of the month that the given day falls on when the
months have the given lengths. -/
def monthAndDay (month : Nat) : List Nat → Nat → Nat × Nat
  | [], day => (month, day)
  | length :: rest, day => if day ≤ length then (month, day) else monthAndDay (month + 1) rest (day - length)

/-- The year, month and day of a day. -/
def civil (n : Int) : Int × Nat × Nat :=
  let year := yearOf n
  (year, monthAndDay 1 (monthLengths (isLeap year)) (n - daysBeforeYear year).toNat)

/-- The day of the week, from Monday, which is 0, to Sunday, which is 6. -/
def weekday (n : Int) : Nat := ((n + 6) % 7).toNat

/-- The Monday of the first week of a year: the week that holds the fourth of January. -/
def firstMonday (year : Int) : Int :=
  let first := daysBeforeYear year + 1
  let monday := first - weekday first
  if 3 < weekday first then monday + 7 else monday

/-- Whether a year of weeks has 53 of them: it starts on a Thursday, or on a Wednesday and is leap. -/
def hasWeek53 (year : Int) : Bool :=
  let first := weekday (daysBeforeYear year + 1)
  first == 3 || (first == 2 && isLeap year)

/-- The day of a week date, if the year has the week and the week the day, Monday being 1. -/
def weekDate? (year : Int) (week day : Nat) : Option Int :=
  if 1 ≤ week && (week ≤ 52 || (week == 53 && hasWeek53 year)) && 1 ≤ day && day ≤ 7 then
    some (firstMonday year + 7 * (week - 1) + (day - 1))
  else none

theorem before_yearOf (n : Int) : daysBeforeYear (yearOf n) < n ∧ n ≤ daysBeforeYear (yearOf n + 1) := by
  simp only [yearOf]
  generalize h : 400 * (n - 1) / 146097 = guess
  split
  · unfold daysBeforeYear at *
    omega
  · split <;> unfold daysBeforeYear at * <;> omega

end Criteria.Calendar
