import Criteria.Calendar.Iso.Writer
import Criteria.Proofs.CalendarUnit
import Criteria.Proofs.TrailingZone

/-!
Moments read back from their text. A date and a time are read as they were written, with
or without microseconds; an offset is read as it was written too, unless it is less than a
second, which is read as zero (`read_write`). So a moment whose offset is of whole seconds
is the operand that its text writes, whatever blanks stand around the text
(`dateOperand_write`).
-/
namespace Criteria

open Text (Octet octets)

namespace Calendar.Iso

/-! ### Numbers of fixed width -/

theorem toNat_digit (n : Nat) : (digit n).toNat = 48 + n % 10 := by
  have low : 48 + n % 10 < 0xD800 := by omega
  rw [digit, Char.ofNat, dif_pos (.inl low)]
  rfl

theorem octets_digit (n : Nat) (cs : List Char) : octets (digit n :: cs) = (48 + n % 10) :: octets cs := by
  have ascii : (digit n).toNat < 0x80 := by
    rw [toNat_digit]
    omega
  rw [octets_cons_of_lt ascii, octet, toNat_digit]

theorem digit?_of_lt {n : Nat} (one : n < 10) : digit? (48 + n) = some n := by
  have bounds : (48 ≤ 48 + n && 48 + n ≤ 57) = true := by
    simp only [Bool.and_eq_true, decide_eq_true_eq]
    omega
  rw [digit?, if_pos bounds, Nat.add_sub_cancel_left]

theorem octets_twoDigits (n : Nat) (cs : List Char) :
    octets (twoDigits n ++ cs) = (48 + n / 10 % 10) :: (48 + n % 10) :: octets cs := by
  rw [twoDigits, List.cons_append, List.singleton_append, octets_digit, octets_digit]

theorem number?_twoDigits (n m : Nat) (cs : List Char) :
    number? m (octets (twoDigits n ++ cs)) = number? (100 * m + n % 100) (octets cs) := by
  have value : 10 * (10 * m + n / 10 % 10) + n % 10 = 100 * m + n % 100 := by omega
  have tens := digit?_of_lt (show n / 10 % 10 < 10 by omega)
  have ones := digit?_of_lt (show n % 10 < 10 by omega)
  simp only [octets_twoDigits, number?, tens, ones, Option.bind_eq_bind, Option.bind_some, value]

theorem number?_fourDigits (n m : Nat) (cs : List Char) :
    number? m (octets (fourDigits n ++ cs)) = number? (10000 * m + n % 10000) (octets cs) := by
  have value : 100 * (100 * m + n / 100 % 100) + n % 100 = 10000 * m + n % 10000 := by omega
  rw [fourDigits, List.append_assoc, number?_twoDigits, number?_twoDigits, value]

theorem number?_sixDigits (n m : Nat) (cs : List Char) :
    number? m (octets (sixDigits n ++ cs)) = number? (1000000 * m + n % 1000000) (octets cs) := by
  have value : 10000 * (100 * m + n / 10000 % 100) + n % 10000 = 1000000 * m + n % 1000000 := by omega
  rw [sixDigits, List.append_assoc, number?_twoDigits, number?_fourDigits, value]

theorem digits_twoDigits (n : Nat) : Digits 2 (octets (twoDigits n)) := by
  have bounds : ∀ k, isDigit (48 + k % 10) = true := by
    intro k
    rw [isDigit_iff]
    omega
  rw [← List.append_nil (twoDigits n), octets_twoDigits]
  exact ⟨rfl, by simp [bounds, octets]⟩

theorem Digits.append {count count' : Nat} {bs cs : List Octet} (front : Digits count bs) (back : Digits count' cs) :
    Digits (count + count') (bs ++ cs) := by
  refine ⟨by rw [List.length_append, front.1, back.1], ?_⟩
  rw [List.forall_mem_append]
  exact ⟨front.2, back.2⟩

theorem digits_fourDigits (n : Nat) : Digits 4 (octets (fourDigits n)) := by
  rw [fourDigits, octets_append]
  exact (digits_twoDigits (n / 100)).append (digits_twoDigits n)

theorem leading?_of_digits {count n : Nat} {front : List Octet} (digits : Digits count front)
    (value : number? 0 front = some n) (rest : List Octet) :
    leading? count (front ++ rest) = some (n, rest) := by
  obtain ⟨rfl, -⟩ := digits
  rw [leading?, if_neg (by simp), List.take_left, List.drop_left, value]
  rfl

theorem leading?_twoDigits {n : Nat} (two : n < 100) (cs : List Char) :
    leading? 2 (octets (twoDigits n ++ cs)) = some (n, octets cs) := by
  have value := number?_twoDigits n 0 []
  rw [List.append_nil, Nat.mul_zero, Nat.zero_add, Nat.mod_eq_of_lt two] at value
  rw [octets_append]
  exact leading?_of_digits (digits_twoDigits n) value (octets cs)

theorem leading?_fourDigits {n : Nat} (four : n < 10000) (cs : List Char) :
    leading? 4 (octets (fourDigits n ++ cs)) = some (n, octets cs) := by
  have value := number?_fourDigits n 0 []
  rw [List.append_nil, Nat.mul_zero, Nat.zero_add, Nat.mod_eq_of_lt four] at value
  rw [octets_append]
  exact leading?_of_digits (digits_fourDigits n) value (octets cs)

/-! ### Dates -/

theorem octets_dateChars (d : Date) (cs : List Char) : octets (dateChars d ++ cs) =
    octets (fourDigits d.year ++ '-' :: (twoDigits d.month ++ '-' :: (twoDigits d.day ++ cs))) := by
  simp [dateChars]

theorem bareDate_dateChars (d : Date) : BareDate (octets (dateChars d)) := by
  refine ⟨true, ?_⟩
  have whole := @WritesDate.day true _ _ _ (digits_fourDigits d.year) (digits_twoDigits d.month)
    (digits_twoDigits d.day)
  rw [← List.append_nil (dateChars d), octets_dateChars, octets_append, octets_cons_of_lt (by decide), octets_append,
    octets_cons_of_lt (by decide), List.append_nil]
  exact whole

theorem monthLength_le (year : Int) (month : Nat) : monthLength year month ≤ 31 := by
  have each : ∀ leap, ∀ n ∈ monthLengths leap, n ≤ 31 := by decide
  unfold monthLength
  split
  · omega
  · rw [List.getD_eq_getElem?_getD]
    cases found : (monthLengths (isLeap year))[month - 1]? with
    | none => simp
    | some n => exact each _ n (List.mem_of_getElem? found)

theorem dateParts?_dateChars (d : Date) : dateParts? (octets (dateChars d)) = some ⟨d.year, d.month, d.day⟩ := by
  obtain ⟨years, months, days⟩ := d.isDate
  have short := monthLength_le d.year d.month
  have noWeek : ∀ k, ((48 + k % 10 : Nat) == octet 'W') = false := by
    intro k
    rw [beq_eq_false_iff_ne]
    show 48 + k % 10 ≠ 87
    omega
  rw [← List.append_nil (dateChars d), octets_dateChars, dateParts?, leading?_fourDigits (by omega)]
  simp only [Option.bind_eq_bind, Option.bind_some, octets_cons_of_lt (show '-'.toNat < 0x80 by decide),
    List.head?_cons, beq_self_eq_true, if_true, List.drop_succ_cons, List.drop_zero]
  rw [octets_twoDigits]
  simp only [noWeek, Bool.false_eq_true, if_false]
  rw [← octets_twoDigits, monthParts?, leading?_twoDigits (by omega)]
  simp only [Option.bind_eq_bind, Option.bind_some, octets_cons_of_lt (show '-'.toNat < 0x80 by decide),
    afterHyphen?, beq_self_eq_true, if_true, leading?_twoDigits (show d.day < 100 by omega)]
  rfl

/-! ### Times -/

section
variable (count n : Nat) (colons : Option Bool)

theorem numbers?_last : numbers? (count + 1) colons (octets (twoDigits n)) = some ⟨[n % 100], 0, true⟩ := by
  have value : 10 * (n / 10 % 10) + n % 10 = n % 100 := by omega
  have tens := digit?_of_lt (show n / 10 % 10 < 10 by omega)
  have ones := digit?_of_lt (show n % 10 < 10 by omega)
  rw [← List.append_nil (twoDigits n), octets_twoDigits]
  simp only [octets, List.flatMap_nil, numbers?, tens, ones, Option.bind_eq_bind, Option.bind_some, value]

/-- After a number and one more character that is not at the end, the character tells how to go on. -/
theorem numbers?_more {c : Char} (ascii : c.toNat < 0x80) {cs : List Char} (solid : cs ≠ []) :
    numbers? (count + 1) colons (octets (twoDigits n ++ c :: cs)) =
      (if colons.getD (octet c == octet ':') && octet c == octet ':' then
        (numbers? count (some (colons.getD (octet c == octet ':'))) (octets cs)).map (·.push (n % 100))
      else if octet c == octet '.' || octet c == octet ',' then (fraction? (octets cs)).map (·.push (n % 100))
      else if colons.getD (octet c == octet ':') then none
      else (numbers? count (some (colons.getD (octet c == octet ':'))) (octet c :: octets cs)).map
        (·.push (n % 100))) := by
  have value : 10 * (n / 10 % 10) + n % 10 = n % 100 := by omega
  have tens := digit?_of_lt (show n / 10 % 10 < 10 by omega)
  have ones := digit?_of_lt (show n % 10 < 10 by omega)
  rw [octets_twoDigits, octets_cons_of_lt ascii]
  cases more : octets cs with
  | nil => exact absurd more (octets_ne_nil solid)
  | cons b bs => simp only [numbers?, tens, ones, Option.bind_eq_bind, Option.bind_some, value]

/-- A colon leads to the next number. -/
theorem numbers?_colon (free : colons ≠ some false) {cs : List Char} (solid : cs ≠ []) :
    numbers? (count + 1) colons (octets (twoDigits n ++ ':' :: cs)) =
      (numbers? count (some true) (octets cs)).map (·.push (n % 100)) := by
  have kept : colons.getD (octet ':' == octet ':') = true := by
    rcases colons with _ | _ | _
    · rfl
    · exact absurd rfl free
    · rfl
  rw [numbers?_more count n colons (by decide) solid, kept]
  rfl

/-- A point leads to the fraction. -/
theorem numbers?_point {cs : List Char} (solid : cs ≠ []) :
    numbers? (count + 1) colons (octets (twoDigits n ++ '.' :: cs)) =
      (fraction? (octets cs)).map (·.push (n % 100)) := by
  have other : (octet '.' == octet ':') = false := by decide
  rw [numbers?_more count n colons (by decide) solid, other, Bool.and_false]
  rfl

end

theorem digits_sixDigits (n : Nat) : Digits 6 (octets (sixDigits n)) := by
  rw [sixDigits, octets_append]
  exact (digits_twoDigits (n / 10000)).append (digits_fourDigits n)

theorem fraction?_sixDigits (n : Nat) : fraction? (octets (sixDigits n)) = some ⟨[], n % 1000000, true⟩ := by
  obtain ⟨long, -⟩ := digits_sixDigits n
  have value := number?_sixDigits n 0 []
  rw [List.append_nil, Nat.mul_zero, Nat.zero_add] at value
  have one : tenPow 0 = 1 := rfl
  rw [fraction?, List.take_of_length_le (Nat.le_of_eq long), List.drop_of_length_le (Nat.le_of_eq long), value, long]
  simp [number?, octets, one, atEnd]

/-- Seconds are read with the microseconds that stand after them. -/
theorem numbers?_seconds (count n : Nat) (colons : Option Bool) {micros : Nat} (small : micros < 1000000) :
    numbers? (count + 1) colons (octets (twoDigits n ++ microChars micros)) = some ⟨[n % 100], micros, true⟩ := by
  unfold microChars
  split
  · rename_i zero
    rw [List.append_nil, numbers?_last, beq_iff_eq.mp zero]
  · rw [numbers?_point count n colons (by simp [sixDigits, twoDigits]), fraction?_sixDigits, Nat.mod_eq_of_lt small]
    rfl

theorem timeParts?_clock (hours minutes seconds : Nat) {micros : Nat} (small : micros < 1000000) :
    timeParts? (octets (twoDigits hours ++ ':' :: (twoDigits minutes ++ ':' ::
      (twoDigits seconds ++ microChars micros)))) =
      some ⟨[hours % 100, minutes % 100, seconds % 100], micros, true⟩ := by
  rw [timeParts?, numbers?_colon 2 hours none nofun (by simp [twoDigits]),
    numbers?_colon 1 minutes (some true) (by decide) (by simp [twoDigits]),
    numbers?_seconds 0 seconds (some true) small]
  rfl

theorem timeParts?_timeChars (t : TimeOfDay) :
    timeParts? (octets (timeChars t)) = some ⟨[t.hour, t.minute, t.second], t.micro, true⟩ := by
  have hours : t.hour.val % 100 = t.hour := Nat.mod_eq_of_lt (by omega)
  have minutes : t.minute.val % 100 = t.minute := Nat.mod_eq_of_lt (by omega)
  have seconds : t.second.val % 100 = t.second := Nat.mod_eq_of_lt (by omega)
  have clock := timeParts?_clock t.hour t.minute t.second t.micro.isLt
  rw [hours, minutes, seconds] at clock
  rw [← clock, timeChars]
  simp only [List.append_assoc, List.cons_append]

theorem Digits.plain {count : Nat} {bs : List Octet} (digits : Digits count bs) :
    ∀ b ∈ bs, startsOffset b = false := by
  intro b inside
  have noOffset : ∀ n < 58, 48 ≤ n → startsOffset n = false := by decide
  obtain ⟨low, high⟩ := isDigit_iff.mp (digits.2 b inside)
  exact noOffset b (Nat.lt_succ_of_le high) low

theorem plain_timeChars (t : TimeOfDay) : ∀ b ∈ octets (timeChars t), startsOffset b = false := by
  have micros : ∀ b ∈ octets (microChars t.micro), startsOffset b = false := by
    unfold microChars
    split
    · nofun
    · rw [octets_cons_of_lt (by decide), List.forall_mem_cons]
      exact ⟨rfl, (digits_sixDigits _).plain⟩
  simp only [timeChars, octets_append, octets_cons_of_lt (show ':'.toNat < 0x80 by decide), List.forall_mem_append,
    List.forall_mem_cons]
  exact ⟨⟨⟨(digits_twoDigits _).plain, rfl, (digits_twoDigits _).plain⟩, rfl, (digits_twoDigits _).plain⟩, micros⟩

/-! ### Offsets -/

/-- An offset as it is read back: one of less than a second is read as zero. -/
def settled (o : Offset) : Offset := if o.micros.natAbs < 1000000 then .utc else o

theorem offsetMicros?_cons {sign : Octet} {rest : List Octet} {t : TimeParts} (noZone : sign ≠ octet 'Z')
    (isTime : timeParts? rest = some t) (complete : t.complete = true) :
    offsetMicros? (sign :: rest) = some (some (offsetMicros (sign == octet '-') t)) := by
  have other : (sign == octet 'Z') = false := beq_eq_false_iff_ne.mpr noZone
  simp [offsetMicros?, other, isTime, complete]

/-- What the hours, minutes and seconds of an offset add up to. -/
theorem offsetMicros_eq {n : Nat} {t : TimeParts} (negative : Bool) (hours : t.hours = n / 3600000000)
    (minutes : t.minutes = n / 60000000 % 60) (seconds : t.seconds = n / 1000000 % 60)
    (micros : t.micros = n % 1000000) :
    offsetMicros negative t = if n < 1000000 then 0 else if negative then -(n : Int) else n := by
  have whole : (t.hours * 60 + t.minutes) * 60 + t.seconds = n / 1000000 := by omega
  simp only [offsetMicros, whole, micros]
  by_cases small : n < 1000000
  · have none : n / 1000000 = 0 := by omega
    simp [none, small]
  · have some : n / 1000000 ≠ 0 := by omega
    have total : n / 1000000 * 1000000 + n % 1000000 = n := by omega
    simp [some, small, total]

theorem sign_ascii (micros : Int) : (signChar micros).toNat < 0x80 := by
  unfold signChar
  split <;> decide

theorem startsOffset_sign (micros : Int) : startsOffset (octet (signChar micros)) = true := by
  unfold signChar
  split <;> decide

theorem micros_settled (o : Offset) : (settled o).micros = if o.micros.natAbs < 1000000 then 0 else
    if octet (signChar o.micros) == octet '-' then -(o.micros.natAbs : Int) else o.micros.natAbs := by
  unfold settled signChar
  by_cases small : o.micros.natAbs < 1000000
  · rw [if_pos small, if_pos small]
    rfl
  rw [if_neg small, if_neg small]
  by_cases negative : o.micros < 0
  · have size : -(o.micros.natAbs : Int) = o.micros := by omega
    rw [if_pos negative, beq_self_eq_true, if_pos rfl, size]
  · have size : (o.micros.natAbs : Int) = o.micros := by omega
    have plus : (octet '+' == octet '-') = false := by decide
    rw [if_neg negative, plus, if_neg Bool.false_ne_true, size]

theorem offsetMicros?_offsetChars (o : Offset) :
    offsetMicros? (octets (offsetChars o)) = some (some (settled o).micros) := by
  have bound : o.micros.natAbs < 86400000000 := by
    have lower := o.lower
    have upper := o.upper
    unfold microsPerDay at lower upper
    omega
  have noZone : octet (signChar o.micros) ≠ octet 'Z' := by
    unfold signChar
    split <;> decide
  have hours : o.micros.natAbs / 3600000000 % 100 = o.micros.natAbs / 3600000000 := Nat.mod_eq_of_lt (by omega)
  have minutes : o.micros.natAbs / 60000000 % 60 % 100 = o.micros.natAbs / 60000000 % 60 := Nat.mod_eq_of_lt (by omega)
  have seconds : o.micros.natAbs / 1000000 % 60 % 100 = o.micros.natAbs / 1000000 % 60 := Nat.mod_eq_of_lt (by omega)
  rw [micros_settled, offsetChars]
  generalize o.micros.natAbs = n at *
  simp only [List.append_assoc, List.cons_append]
  rw [octets_cons_of_lt (sign_ascii o.micros)]
  split
  · rename_i nothing
    simp only [Bool.and_eq_true, beq_iff_eq] at nothing
    have isTime : timeParts? (octets (twoDigits (n / 3600000000) ++ ':' :: (twoDigits (n / 60000000 % 60) ++ []))) =
        some ⟨[n / 3600000000, n / 60000000 % 60], 0, true⟩ := by
      rw [List.append_nil, timeParts?, numbers?_colon 2 _ none (by decide) (by simp [twoDigits]), numbers?_last,
        hours, minutes]
      rfl
    have total := @offsetMicros_eq n ⟨[n / 3600000000, n / 60000000 % 60], 0, true⟩
      (octet (signChar o.micros) == octet '-') rfl rfl nothing.1.symm nothing.2.symm
    rw [offsetMicros?_cons noZone isTime rfl, total]
  · have isTime := timeParts?_clock (n / 3600000000) (n / 60000000 % 60) (n / 1000000 % 60)
      (Nat.mod_lt n (show 0 < 1000000 by decide))
    rw [hours, minutes, seconds] at isTime
    rw [offsetMicros?_cons noZone isTime rfl, offsetMicros_eq _ rfl rfl rfl rfl]

/-! ### Moments -/

theorem of_timeOfDay (t : TimeOfDay) :
    TimeOfDay.of t.hour t.minute t.second ⟨t.micro.val % 1000000, Nat.mod_lt _ (by decide)⟩ = .ok t := by
  have micro : (⟨t.micro.val % 1000000, Nat.mod_lt _ (by decide)⟩ : Fin 1000000) = t.micro :=
    Fin.ext (Nat.mod_eq_of_lt t.micro.isLt)
  rw [TimeOfDay.of, dif_pos t.hour.isLt, dif_pos t.minute.isLt, dif_pos t.second.isLt, micro]

theorem of_micros (o : Offset) : Offset.of o.micros = .ok o := by
  rw [Offset.of, dif_pos ⟨o.lower, o.upper⟩]

theorem ofParts_of_moment (m : Moment) : ofParts ⟨m.date.year, m.date.month, m.date.day⟩
    ⟨[m.time.hour, m.time.minute, m.time.second], m.time.micro, true⟩ (m.offset.map (·.micros)) = .ok m := by
  refine ofParts_eq_ok_iff.mpr ⟨?_, Date.of_eq_ok_iff.mpr ⟨rfl, rfl, rfl⟩, of_timeOfDay m.time⟩
  cases m.offset with
  | none => rfl
  | some o =>
    show (do return some (← Offset.of o.micros) : Except Fault (Option Offset)) = .ok (some o)
    rw [of_micros]
    rfl

theorem parts?_chars (m : Moment) : parts? (octets (chars m)) = some (⟨m.date.year, m.date.month, m.date.day⟩,
    ⟨[m.time.hour, m.time.minute, m.time.second], m.time.micro, true⟩, (m.offset.map settled).map (·.micros)) := by
  have ends := @BareDate.dateEnd?_cons _ 'T' (bareDate_dateChars m.date) (by decide) rfl (by decide)
  have plain := plain_timeChars m.time
  have isTime := timeParts?_timeChars m.time
  rw [chars, wallChars, List.append_assoc, List.cons_append, parts?_of_dateEnd? (ends _), dateParts?_dateChars,
    Option.bind_some]
  cases m.offset with
  | none =>
    have read := timeAndOffset?_none_iff.mpr ⟨plain, isTime, rfl⟩
    simp only [Option.map_none, Option.getD_none, List.append_nil, read, Option.map_some]
  | some o =>
    have isOffset := offsetMicros?_offsetChars o
    obtain ⟨body, signed⟩ : ∃ body, offsetChars o = signChar o.micros :: body := ⟨_, rfl⟩
    rw [signed, octets_cons_of_lt (sign_ascii o.micros)] at isOffset
    simp only [Option.map_some, Option.getD_some, signed, octets_append, octets_cons_of_lt (sign_ascii o.micros),
      timeAndOffset?_append plain (startsOffset_sign o.micros) isOffset, isTime]

theorem read_write (m : Moment) : read (write m) = .ok { m with offset := m.offset.map settled } := by
  have long : 7 ≤ (chars m).length := by
    simp [chars, wallChars, dateChars, fourDigits, twoDigits]
  exact read_eq_ok_iff.mpr ⟨long, _, _, _, parts?_chars m, ofParts_of_moment { m with offset := m.offset.map settled }⟩

end Calendar.Iso

/-! ### Written moments as operands -/

namespace Calendar

/-- The text of a moment is made of digits and the marks between its parts. -/
theorem Iso.forall_mem_chars {P : Char → Prop} (digits : ∀ n, P (Iso.digit n))
    (marks : P '-' ∧ P ':' ∧ P 'T' ∧ P '.' ∧ P '+') (m : Moment) : ∀ c ∈ Iso.chars m, P c := by
  obtain ⟨hyphen, colon, separator, point, plus⟩ := marks
  have two : ∀ n, ∀ c ∈ Iso.twoDigits n, P c := by
    intro n
    exact List.forall_mem_cons.mpr ⟨digits _, List.forall_mem_singleton.mpr (digits _)⟩
  have four : ∀ n, ∀ c ∈ Iso.fourDigits n, P c := fun n => List.forall_mem_append.mpr ⟨two _, two _⟩
  have six : ∀ n, ∀ c ∈ Iso.sixDigits n, P c := fun n => List.forall_mem_append.mpr ⟨two _, four _⟩
  have micros : ∀ n, ∀ c ∈ Iso.microChars n, P c := by
    intro n
    unfold Iso.microChars
    split
    · nofun
    · exact List.forall_mem_cons.mpr ⟨point, six n⟩
  have sign : ∀ k, P (Iso.signChar k) := by
    intro k
    unfold Iso.signChar
    split
    · exact hyphen
    · exact plus
  have offset : ∀ c ∈ (m.offset.map Iso.offsetChars).getD [], P c := by
    cases m.offset with
    | none => nofun
    | some o =>
      simp only [Option.map_some, Option.getD_some, Iso.offsetChars, List.forall_mem_append, List.forall_mem_cons]
      refine ⟨⟨⟨sign _, two _⟩, colon, two _⟩, ?_⟩
      split
      · nofun
      · simp only [List.forall_mem_append, List.forall_mem_cons]
        exact ⟨⟨colon, two _⟩, micros _⟩
  simp only [Iso.chars, Iso.wallChars, Iso.dateChars, Iso.timeChars, List.forall_mem_append, List.forall_mem_cons]
  exact ⟨⟨⟨⟨four _, hyphen, two _⟩, hyphen, two _⟩, separator, ⟨⟨two _, colon, two _⟩, colon, two _⟩, micros _⟩, offset⟩

theorem Iso.chars_ne_nil (m : Moment) : Iso.chars m ≠ [] := by
  simp [Iso.chars, Iso.wallChars, Iso.dateChars, Iso.fourDigits, Iso.twoDigits]

/-- An offset of whole seconds. -/
def Offset.IsWhole (o : Offset) : Prop := 1000000 ∣ o.micros

theorem Iso.settled_of_isWhole {o : Offset} (whole : o.IsWhole) : settled o = o := by
  unfold settled
  split
  · rename_i small
    have zero : o.micros = 0 := by
      unfold Offset.IsWhole at whole
      omega
    cases o
    cases zero
    rfl
  · rfl

end Calendar

open Calendar (Moment)
open Calendar.Iso

theorem trimmed_chars (m : Moment) : Text.Trimmed (chars m) := by
  have noBlank : ∀ c ∈ chars m, Text.isBlank c = false := by
    refine forall_mem_chars ?_ (by decide) m
    intro n
    have code := toNat_digit n
    simp only [Text.isBlank, Text.isWideBlank, code, Bool.or_eq_false_iff, Bool.and_eq_false_iff, beq_eq_false_iff_ne,
      decide_eq_false_iff_not]
    omega
  constructor
  · intro c first
    exact noBlank c (List.mem_of_mem_head? first)
  · intro c last
    exact noBlank c (List.mem_of_mem_getLast? last)

theorem withOffset_chars (m : Moment) : withOffset (chars m) = chars m := by
  have noZone : ∀ c ∈ chars m, ¬ IsZone c := by
    refine forall_mem_chars ?_ (by unfold IsZone; decide) m
    have upper : 'Z'.toNat = 90 := rfl
    have lower : 'z'.toNat = 122 := rfl
    intro n zone
    have code := toNat_digit n
    rcases zone with zone | zone
    · rw [zone] at code
      omega
    · rw [zone] at code
      omega
  refine withOffset_of_noZone ?_
  intro front z zone split
  exact noZone z (split ▸ List.mem_append_right front List.mem_cons_self) zone

/-- The text of a moment whose offset, if it has one, is of whole seconds is the operand of that
    moment, whatever blanks stand around it. -/
theorem dateOperand_write {m : Moment} (whole : ∀ o, m.offset = some o → o.IsWhole) {before after : String}
    (blankBefore : ∀ c ∈ before.toList, Text.isBlank c = true)
    (blankAfter : ∀ c ∈ after.toList, Text.isBlank c = true) :
    dateOperand (.str (before ++ write m ++ after)) = .ok m ∧
      isDateOperand (.str (before ++ write m ++ after)) = true := by
  have text : (before ++ write m ++ after).toList =
      before.toList ++ (chars m ++ after.toList) := by
    simp [write]
  have trimmed : Text.trimChars (before ++ write m ++ after).toList = chars m := by
    rw [text]
    exact Text.trimChars_padded (trimmed_chars m) blankBefore blankAfter
  have same : m.offset.map settled = m.offset := by
    cases isOffset : m.offset with
    | none => rfl
    | some o => rw [Option.map_some, settled_of_isWhole (whole o isOffset)]
  have isRead : dateOperand (.str (before ++ write m ++ after)) = .ok m := by
    rw [dateOperand_eq_read trimmed (chars_ne_nil m), withOffset_chars, mapError_eq_ok_iff]
    exact (read_write m).trans (by rw [same])
  exact ⟨isRead, by rw [isDateOperand, isRead]⟩

/-- The first microsecond after the first midnight, a second short of a day behind universal time. -/
def firstMicrosecond : Moment :=
  ⟨⟨1, 1, 1, by decide⟩, { Calendar.TimeOfDay.midnight with micro := ⟨1, by decide⟩ },
    some ⟨-86399000000, by decide, by decide⟩⟩

theorem dateOperand_write_firstMicrosecond :
    write firstMicrosecond = "0001-01-01T00:00:00.000001-23:59:59" ∧
      dateOperand (.str ("\u3000\t" ++ write firstMicrosecond ++ "\u0085")) = .ok firstMicrosecond ∧
      isDateOperand (.str ("\u3000\t" ++ write firstMicrosecond ++ "\u0085")) = true := by
  have whole : ∀ o, firstMicrosecond.offset = some o → o.IsWhole := by
    rintro o ⟨⟩
    exact ⟨-86399, by decide⟩
  exact ⟨by decide, dateOperand_write whole (List.all_eq_true.mp (by decide)) (List.all_eq_true.mp (by decide))⟩

end Criteria
