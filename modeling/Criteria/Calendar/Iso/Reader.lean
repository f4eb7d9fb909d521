import Criteria.Calendar.Date
import Criteria.Decimal.Power
import Criteria.Text.Utf8

/-!
Moments read from ISO 8601. A text starts with a calendar date or a week date, with
or without hyphens; any one character may stand between it and the time, which is
written with or without colons and may end in a fraction and in an offset. The parts
are found by their places among the bytes of the text, and a NUL counts as its end
where a part may be complete. Ranges are checked once all parts were read, the offset
first.
-/
namespace Criteria.Calendar.Iso

open Text (Octet)

/-- The byte of an ASCII character. -/
def octet (c : Char) : Octet := c.toNat

/-- The value of a digit. -/
def digit? (b : Octet) : Option Nat := if 48 ≤ b && b ≤ 57 then some (b - 48) else none

/-- Whether a byte is a digit. -/
def isDigit (b : Octet) : Bool := 48 ≤ b && b ≤ 57

/-- The number that digits write. -/
def number? : Nat → List Octet → Option Nat
  | n, [] => some n
  | n, b :: rest => do number? (10 * n + (← digit? b)) rest

/-- The number that the first `count` bytes write, and what follows them. -/
def leading? (count : Nat) (bs : List Octet) : Option (Nat × List Octet) :=
  if bs.length < count then none else (number? 0 (bs.take count)).map (·, bs.drop count)

/-- Whether the bytes are at their end: nothing is left, or a NUL is next. -/
def atEnd : List Octet → Bool
  | [] => true
  | b :: _ => b == 0

/-- Where a week date without hyphens ends. It has a weekday if one digit follows the week, or an even
number of them, of which all but the first are the time. -/
def compactWeekEnd (bs : List Octet) : Nat :=
  let digits := ((bs.drop 7).takeWhile isDigit).length
  if digits < 2 then 7 + digits else if digits % 2 == 1 then 7 else 8

/-- Where a week date with hyphens ends. A hyphen and a digit after the week are the weekday, unless a
second digit shows that they start the time. -/
def hyphenWeekEnd? (bs : List Octet) : Option Nat :=
  if bs[8]? == some (octet '-') then
    if bs.length == 9 then none
    else if (bs[10]?.map isDigit).getD false then some 8
    else some 10
  else some 8

/-- Where the date at the start of the bytes ends. -/
def dateEnd? (bs : List Octet) : Option Nat :=
  if bs.length == 7 then some 7
  else if bs[4]? == some (octet '-') then
    if bs[5]? == some (octet 'W') then hyphenWeekEnd? bs else some 10
  else if bs[4]? == some (octet 'W') then some (compactWeekEnd bs)
  else some 8

/-- What follows a hyphen where dates are written with hyphens. -/
def afterHyphen? (hyphens : Bool) (bs : List Octet) : Option (List Octet) :=
  match hyphens, bs with
  | false, bs => some bs
  | true, b :: rest => if b == octet '-' then some rest else none
  | true, [] => none

/-- A year, month and day, which need not be those of a date. -/
structure DateParts where
  year : Int
  month : Nat
  day : Nat

/-- The parts of a day of the unbounded calendar; the days before its day 1 lie in no month. -/
def DateParts.ofNumber (n : Int) : DateParts :=
  if n < 1 then ⟨1, 0, 0⟩
  else
    let (year, month, day) := civil n
    ⟨year, month, day⟩

/-- The week date that bytes after a `W` write; its first day if none is written. -/
def weekParts? (year : Nat) (hyphens : Bool) (bs : List Octet) : Option DateParts := do
  let (week, rest) ← leading? 2 bs
  let day ←
    if rest.isEmpty then some 1
    else do
      let (day, _) ← leading? 1 (← afterHyphen? hyphens rest)
      some day
  return DateParts.ofNumber (← weekDate? year week day)

/-- The month and day that bytes after a year write. -/
def monthParts? (year : Nat) (hyphens : Bool) (bs : List Octet) : Option DateParts := do
  let (month, rest) ← leading? 2 bs
  let (day, _) ← leading? 2 (← afterHyphen? hyphens rest)
  return ⟨year, month, day⟩

/-- The date at the start of bytes. -/
def dateParts? (bs : List Octet) : Option DateParts := do
  let (year, rest) ← leading? 4 bs
  let hyphens := rest.head? == some (octet '-')
  let rest := if hyphens then rest.drop 1 else rest
  match rest with
  | [] => none
  | b :: more => if b == octet 'W' then weekParts? year hyphens more else monthParts? year hyphens rest

/-- What follows the character at the start of the bytes, by the width that its first byte tells. -/
def afterSeparator : List Octet → List Octet
  | [] => []
  | b :: rest =>
    if b < 0x80 then rest
    else if 0xF0 ≤ b then rest.drop 3
    else if 0xE0 ≤ b then rest.drop 2
    else rest.drop 1

/-- The numbers of a time, hours first, its microseconds, and whether its bytes were used up. -/
structure TimeParts where
  numbers : List Nat
  micros : Nat
  complete : Bool

/-- One more number in front of a time's numbers. -/
def TimeParts.push (n : Nat) (t : TimeParts) : TimeParts := { t with numbers := n :: t.numbers }

/-- The hours of a time. -/
def TimeParts.hours (t : TimeParts) : Nat := t.numbers.getD 0 0

/-- The minutes of a time. -/
def TimeParts.minutes (t : TimeParts) : Nat := t.numbers.getD 1 0

/-- The seconds of a time. -/
def TimeParts.seconds (t : TimeParts) : Nat := t.numbers.getD 2 0

/-- A fraction: its first six bytes are digits, and further digits are dropped. -/
def fraction? (bs : List Octet) : Option TimeParts := do
  let digits := bs.take 6
  let n ← number? 0 digits
  return ⟨[], n * tenPow (6 - digits.length), atEnd ((bs.drop 6).dropWhile isDigit)⟩

/-- A time of at most `count` numbers. Whether colons stand between them is settled after the first. -/
def numbers? : Nat → Option Bool → List Octet → Option TimeParts
  | 0, _, bs => fraction? bs
  | count + 1, colons, a :: b :: rest => do
    let n := 10 * (← digit? a) + (← digit? b)
    match rest with
    | [] => some ⟨[n], 0, true⟩
    | [c] => some ⟨[n], 0, c == 0⟩
    | c :: more =>
      let colons := colons.getD (c == octet ':')
      if colons && c == octet ':' then (numbers? count (some colons) more).map (·.push n)
      else if c == octet '.' || c == octet ',' then (fraction? more).map (·.push n)
      else if colons then none
      else (numbers? count (some colons) (c :: more)).map (·.push n)
  | _ + 1, _, _ => none

/-- The time that bytes write: hours, minutes and seconds, and a fraction. -/
def timeParts? (bs : List Octet) : Option TimeParts := numbers? 3 none bs

/-- Whether a byte starts an offset. -/
def startsOffset (b : Octet) : Bool := b == octet '+' || b == octet '-' || b == octet 'Z'

/-- The microseconds of an offset. An offset of no seconds has none. -/
def offsetMicros (negative : Bool) (t : TimeParts) : Int :=
  let seconds := (t.hours * 60 + t.minutes) * 60 + t.seconds
  let micros := if seconds == 0 then 0 else seconds * 1000000 + t.micros
  if negative then -(micros : Int) else micros

/-- The offset, in microseconds, that bytes write; nothing if there are none. -/
def offsetMicros? : List Octet → Option (Option Int)
  | [] => some none
  | b :: rest =>
    if b == octet 'Z' then if atEnd rest then some (some 0) else none
    else do
      let t ← timeParts? rest
      if t.complete then some (some (offsetMicros (b == octet '-') t)) else none

/-- A time and an offset in microseconds, if one is written. A time before an offset need not have
used up its bytes. -/
def timeAndOffset? (bs : List Octet) : Option (TimeParts × Option Int) := do
  let t ← timeParts? (bs.takeWhile (!startsOffset ·))
  let offset ← offsetMicros? (bs.dropWhile (!startsOffset ·))
  if offset.isSome || t.complete then some (t, offset) else none

/-- The parts that bytes write: a date, and a time unless the date is all. -/
def parts? (bs : List Octet) : Option (DateParts × TimeParts × Option Int) := do
  let stop ← dateEnd? bs
  let date ← dateParts? (bs.take stop)
  match bs.drop stop with
  | [] => return (date, ⟨[], 0, true⟩, none)
  | rest => return (date, ← timeAndOffset? (afterSeparator rest))

/-- The moment of the given parts, if they are in range. -/
def ofParts (date : DateParts) (time : TimeParts) (offset : Option Int) : Except Fault Moment := do
  let offset ← offset.mapM Offset.of
  let date ← Date.of date.year date.month date.day
  let micro : Fin 1000000 := ⟨time.micros % 1000000, Nat.mod_lt _ (by decide)⟩
  let time ← TimeOfDay.of time.hours time.minutes time.seconds micro
  return ⟨date, time, offset⟩

/-- The moment that a text writes. -/
def read (s : String) : Except Fault Moment :=
  let cs := s.toList
  if cs.length < 7 then .error (.malformed s)
  else match parts? (Text.octets cs) with
    | none => .error (.malformed s)
    | some (date, time, offset) => ofParts date time offset

/-- The date that a text writes. -/
def readDate (s : String) : Except Fault Date :=
  let bs := Text.octets s.toList
  if bs.length == 7 || bs.length == 8 || bs.length == 10 then
    match dateParts? bs with
    | some date => Date.of date.year date.month date.day
    | none => .error (.malformed s)
  else .error (.malformed s)

end Criteria.Calendar.Iso
