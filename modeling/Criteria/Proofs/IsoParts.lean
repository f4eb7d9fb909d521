import Mathlib.Data.List.TakeWhile
import Criteria.Calendar.Iso.Reader
import Criteria.Proofs.Outcome

/-!
The parts of a text in ISO 8601. The bytes of a date are digits, with a hyphen or
nothing between them and a `W` before a week (`WritesDate`). A text that can be read
is such a date, or a date, any one character and a time (`bareDate_take`,
`parts?_octets_iff`); and the date ends at the same place when something that is
neither a digit nor a hyphen is put at the end of the text (`dateEnd?_append`).
-/
namespace Criteria.Calendar.Iso

open Text (Octet octets utf8)

/-! ### Characters and their bytes -/

theorem utf8_of_lt {c : Char} (ascii : c.toNat < 0x80) : utf8 c = [c.toNat] := by
  simp [utf8, ascii]

theorem octets_append (cs ds : List Char) : octets (cs ++ ds) = octets cs ++ octets ds := by
  simp [octets]

theorem octets_cons (c : Char) (cs : List Char) : octets (c :: cs) = utf8 c ++ octets cs := by
  simp [octets]

theorem octets_cons_of_lt {c : Char} (ascii : c.toNat < 0x80) (cs : List Char) :
    octets (c :: cs) = octet c :: octets cs := by
  rw [octets_cons, utf8_of_lt ascii]
  rfl

theorem octet_mem_octets {c : Char} {cs : List Char} (ascii : c.toNat < 0x80) (inside : c ∈ cs) :
    octet c ∈ octets cs := by
  rw [octets, List.mem_flatMap]
  refine ⟨c, inside, ?_⟩
  rw [utf8_of_lt ascii]
  exact List.mem_singleton_self _

theorem utf8_ne_nil (c : Char) : utf8 c ≠ [] := by
  simp only [utf8]
  split_ifs <;> exact List.cons_ne_nil _ _

theorem octets_ne_nil {cs : List Char} (solid : cs ≠ []) : octets cs ≠ [] := by
  cases cs with
  | nil => exact absurd rfl solid
  | cons c rest =>
    rw [octets_cons]
    exact List.append_ne_nil_of_left_ne_nil (utf8_ne_nil c) _

/-- A byte below 128 at the start of a text is its first character. -/
theorem exists_of_octets_eq_cons {cs : List Char} {b : Nat} {bs : List Octet} (written : octets cs = b :: bs)
    (ascii : b < 0x80) : ∃ c rest, cs = c :: rest ∧ c.toNat = b ∧ octets rest = bs := by
  cases cs with
  | nil => simp [octets] at written
  | cons c rest =>
    rw [octets_cons] at written
    have one : c.toNat < 0x80 := by
      by_contra wide
      simp only [utf8, if_neg wide] at written
      split_ifs at written <;> obtain ⟨rfl, -⟩ := List.cons.inj written <;> omega
    rw [utf8_of_lt one, List.singleton_append, List.cons.injEq] at written
    exact ⟨c, rest, rfl, written.1, written.2⟩

/-- Bytes below 128 at the start of a text are characters of it. -/
theorem exists_of_octets_eq_append {cs : List Char} {bs tail : List Octet} (written : octets cs = bs ++ tail)
    (ascii : ∀ b ∈ bs, b < 0x80) : ∃ front rest, cs = front ++ rest ∧ octets front = bs ∧ octets rest = tail := by
  induction bs generalizing cs with
  | nil => exact ⟨[], cs, rfl, rfl, written⟩
  | cons b bs ih =>
    rw [List.forall_mem_cons] at ascii
    obtain ⟨c, others, rfl, code, written⟩ := exists_of_octets_eq_cons written ascii.1
    obtain ⟨front, rest, rfl, isFront, isRest⟩ := ih written ascii.2
    refine ⟨c :: front, rest, rfl, ?_, isRest⟩
    rw [octets_cons, utf8_of_lt (code ▸ ascii.1), code, isFront, List.singleton_append]

theorem length_le_octets (cs : List Char) : cs.length ≤ (octets cs).length := by
  induction cs with
  | nil => exact Nat.le_refl 0
  | cons c rest ih =>
    have positive := List.length_pos_iff.mpr (utf8_ne_nil c)
    rw [octets_cons, List.length_append, List.length_cons]
    omega

/-- The separator of a date and a time is one character, however wide. -/
theorem afterSeparator_octets (c : Char) (cs : List Char) : afterSeparator (octets (c :: cs)) = octets cs := by
  rw [octets_cons, utf8]
  split_ifs with one two three
  · simp [afterSeparator, one]
  · have low : ¬ 0xC0 + c.toNat / 0x40 < 0x80 := by omega
    have notFour : ¬ 0xF0 ≤ 0xC0 + c.toNat / 0x40 := by omega
    have notThree : ¬ 0xE0 ≤ 0xC0 + c.toNat / 0x40 := by omega
    simp [afterSeparator, low, notFour, notThree]
  · have low : ¬ 0xE0 + c.toNat / 0x1000 < 0x80 := by omega
    have notFour : ¬ 0xF0 ≤ 0xE0 + c.toNat / 0x1000 := by omega
    simp [afterSeparator, low, notFour]
  · have low : ¬ 0xF0 + c.toNat / 0x40000 < 0x80 := by omega
    simp [afterSeparator, low]

/-! ### Digits -/

/-- Bytes that are as many digits as given. -/
def Digits (count : Nat) (bs : List Octet) : Prop := bs.length = count ∧ ∀ b ∈ bs, isDigit b = true

theorem isDigit_iff {b : Nat} : isDigit b = true ↔ 48 ≤ b ∧ b ≤ 57 := by
  simp [isDigit]

theorem isDigit_of_digit? {b : Octet} {n : Nat} (read : digit? b = some n) : isDigit b = true := by
  rw [digit?] at read
  split at read
  · assumption
  · cases read

theorem isDigit_of_number? {n m : Nat} {bs : List Octet} (read : number? n bs = some m) :
    ∀ b ∈ bs, isDigit b = true := by
  induction bs generalizing n with
  | nil => simp
  | cons b rest ih =>
    obtain ⟨d, isDigit, read⟩ := Option.bind_eq_some_iff.mp read
    intro x inside
    rcases List.mem_cons.mp inside with rfl | later
    · exact isDigit_of_digit? isDigit
    · exact ih read x later

theorem exists_of_leading? {count n : Nat} {bs rest : List Octet} (read : leading? count bs = some (n, rest)) :
    ∃ digits, Digits count digits ∧ bs = digits ++ rest := by
  unfold leading? at read
  split at read
  · cases read
  · rename_i enough
    obtain ⟨m, number, same⟩ := Option.map_eq_some_iff.mp read
    obtain ⟨rfl, rfl⟩ := Prod.mk.inj same
    have long : (bs.take count).length = count := List.length_take_of_le (by omega)
    exact ⟨bs.take count, ⟨long, isDigit_of_number? number⟩, (List.take_append_drop count bs).symm⟩

namespace Digits

variable {bs : List Octet}

theorem exists_one (digits : Digits 1 bs) : ∃ a, bs = [a] ∧ isDigit a = true := by
  obtain ⟨long, each⟩ := digits
  obtain ⟨a, rfl⟩ := List.length_eq_one_iff.mp long
  exact ⟨a, rfl, each a List.mem_cons_self⟩

theorem exists_two (digits : Digits 2 bs) : ∃ a b, bs = [a, b] ∧ isDigit a = true ∧ isDigit b = true := by
  obtain ⟨long, each⟩ := digits
  match bs, long with
  | [a, b], _ => exact ⟨a, b, rfl, by simpa using each⟩

theorem exists_four (digits : Digits 4 bs) : ∃ a b c d, bs = [a, b, c, d] := by
  obtain ⟨long, -⟩ := digits
  match bs, long with
  | [a, b, c, d], _ => exact ⟨a, b, c, d, rfl⟩

end Digits

/-! ### Dates -/

/-- What stands between the parts of a date. -/
def mark : Bool → List Octet
  | true => [octet '-']
  | false => []

/-- The bytes of a date, with hyphens or without: the year, then the month and the day, or a `W` and
    the week, with a day of the week or without. -/
inductive WritesDate (hyphens : Bool) : List Octet → Prop where
  | day {year month day : List Octet} : Digits 4 year → Digits 2 month → Digits 2 day →
      WritesDate hyphens (year ++ (mark hyphens ++ (month ++ (mark hyphens ++ day))))
  | week {year week : List Octet} : Digits 4 year → Digits 2 week →
      WritesDate hyphens (year ++ (mark hyphens ++ octet 'W' :: week))
  | weekday {year week day : List Octet} : Digits 4 year → Digits 2 week → Digits 1 day →
      WritesDate hyphens (year ++ (mark hyphens ++ octet 'W' :: (week ++ (mark hyphens ++ day))))

/-- Bytes that are a date and nothing else. -/
def BareDate (bs : List Octet) : Prop := ∃ hyphens, WritesDate hyphens bs

theorem eq_mark_append_of_afterHyphen? {hyphens : Bool} {bs rest : List Octet}
    (read : afterHyphen? hyphens bs = some rest) : bs = mark hyphens ++ rest := by
  cases hyphens with
  | false =>
    cases read
    rfl
  | true =>
    cases bs with
    | nil => cases read
    | cons b more =>
      simp only [afterHyphen?, beq_iff_eq, Option.ite_none_right_eq_some, Option.some.injEq] at read
      obtain ⟨rfl, rfl⟩ := read
      rfl

theorem exists_of_monthParts? {year : Nat} {hyphens : Bool} {bs : List Octet} {date : DateParts}
    (read : monthParts? year hyphens bs = some date) :
    ∃ month day rest, Digits 2 month ∧ Digits 2 day ∧ bs = month ++ (mark hyphens ++ (day ++ rest)) := by
  obtain ⟨⟨m, afterMonth⟩, first, read⟩ := Option.bind_eq_some_iff.mp read
  obtain ⟨beforeDay, hyphen, read⟩ := Option.bind_eq_some_iff.mp read
  obtain ⟨⟨d, rest⟩, last, -⟩ := Option.bind_eq_some_iff.mp read
  obtain ⟨month, isMonth, rfl⟩ := exists_of_leading? first
  obtain ⟨day, isDay, rfl⟩ := exists_of_leading? last
  rw [eq_mark_append_of_afterHyphen? hyphen]
  exact ⟨month, day, rest, isMonth, isDay, rfl⟩

theorem exists_of_weekParts? {year : Nat} {hyphens : Bool} {bs : List Octet} {date : DateParts}
    (read : weekParts? year hyphens bs = some date) :
    ∃ week, Digits 2 week ∧ (bs = week ∨
      ∃ day rest, Digits 1 day ∧ bs = week ++ (mark hyphens ++ (day ++ rest))) := by
  obtain ⟨⟨w, rest⟩, first, second⟩ := Option.bind_eq_some_iff.mp read
  obtain ⟨week, isWeek, rfl⟩ := exists_of_leading? first
  refine ⟨week, isWeek, ?_⟩
  by_cases none : rest = []
  · rw [none, List.append_nil]
    exact .inl rfl
  · simp only [List.isEmpty_iff, if_neg none] at second
    obtain ⟨beforeDay, hyphen, last⟩ := Option.bind_eq_some_iff.mp second
    obtain ⟨⟨d, more⟩, last, -⟩ := Option.bind_eq_some_iff.mp last
    obtain ⟨day, isDay, rfl⟩ := exists_of_leading? last
    rw [eq_mark_append_of_afterHyphen? hyphen]
    exact .inr ⟨day, more, isDay, rfl⟩

theorem eq_mark_append (bs : List Octet) :
    bs = mark (bs.head? == some (octet '-')) ++ if bs.head? == some (octet '-') then bs.drop 1 else bs := by
  cases bs with
  | nil => rfl
  | cons b rest =>
    by_cases hyphen : b = octet '-'
    · simp [hyphen, mark]
    · have other : (b == octet '-') = false := by simpa using hyphen
      simp [other, mark]

/-- Bytes that can be read as a date start with one. A week without a day of the week is all of them. -/
theorem exists_of_dateParts? {bs : List Octet} {date : DateParts} (read : dateParts? bs = some date) :
    ∃ hyphens written rest, WritesDate hyphens written ∧ bs = written ++ rest ∧
      (rest = [] ∨ written.length = 8 + 2 * (mark hyphens).length) := by
  obtain ⟨⟨y, afterYear⟩, first, second⟩ := Option.bind_eq_some_iff.mp read
  obtain ⟨year, isYear, rfl⟩ := exists_of_leading? first
  have marked := eq_mark_append afterYear
  simp only at second
  generalize (afterYear.head? == some (octet '-')) = hyphens at second marked
  generalize (if hyphens = true then afterYear.drop 1 else afterYear) = body at second marked
  subst marked
  split at second
  · cases second
  · rename_i b more
    split at second
    · rename_i isWeek
      obtain ⟨week, digits, rfl | ⟨day, rest, digits', rfl⟩⟩ := exists_of_weekParts? second
      · refine ⟨hyphens, _, [], .week isYear digits, ?_, .inl rfl⟩
        rw [beq_iff_eq.mp isWeek, List.append_nil]
      · refine ⟨hyphens, _, rest, .weekday isYear digits digits', ?_, .inr ?_⟩
        · simp [beq_iff_eq.mp isWeek]
        · simp only [List.length_append, List.length_cons, isYear.1, digits.1, digits'.1]
          omega
    · obtain ⟨month, day, rest, digits, digits', isBody⟩ := exists_of_monthParts? second
      refine ⟨hyphens, _, rest, .day isYear digits digits', ?_, .inr ?_⟩
      · simp [isBody]
      · simp only [List.length_append, isYear.1, digits.1, digits'.1]
        omega

theorem ne_of_isDigit {b : Octet} (digit : isDigit b = true) : b ≠ octet 'W' ∧ b ≠ octet '-' := by
  constructor <;> rintro rfl <;> cases digit

theorem compactWeekEnd_le (bs : List Octet) : compactWeekEnd bs ≤ 8 := by
  simp only [compactWeekEnd]
  split_ifs <;> omega

theorem hyphenWeekEnd?_le {bs : List Octet} {stop : Nat} (ends : hyphenWeekEnd? bs = some stop) : stop ≤ 10 := by
  unfold hyphenWeekEnd? at ends
  split_ifs at ends <;> simp only [Option.some.injEq] at ends <;> omega

/-- The date at the start of bytes ends no later than where a date is written out in full. -/
theorem dateEnd?_le {hyphens : Bool} {written tail : List Octet} {stop : Nat} (isDate : WritesDate hyphens written)
    (full : tail = [] ∨ written.length = 8 + 2 * (mark hyphens).length)
    (ends : dateEnd? (written ++ tail) = some stop) : stop ≤ written.length := by
  cases isDate with
  | @day year month day isYear isMonth isDay =>
    obtain ⟨a, b, c, d, rfl⟩ := isYear.exists_four
    obtain ⟨e, f, rfl, digit, -⟩ := isMonth.exists_two
    obtain ⟨g, h, rfl, -, -⟩ := isDay.exists_two
    obtain ⟨noWeek, noHyphen⟩ := ne_of_isDigit digit
    cases hyphens
    · simp [dateEnd?, mark, noWeek, noHyphen] at ends ⊢
      omega
    · simp [dateEnd?, mark, noWeek] at ends ⊢
      omega
  | @week year week isYear isWeek =>
    obtain ⟨a, b, c, d, rfl⟩ := isYear.exists_four
    obtain ⟨e, f, rfl, digit, -⟩ := isWeek.exists_two
    obtain rfl : tail = [] := full.resolve_right (by cases hyphens <;> simp [mark])
    cases hyphens
    · simp [dateEnd?, mark] at ends ⊢
      omega
    · simp [dateEnd?, mark, hyphenWeekEnd?] at ends ⊢
      omega
  | @weekday year week day isYear isWeek isDay =>
    obtain ⟨a, b, c, d, rfl⟩ := isYear.exists_four
    obtain ⟨e, f, rfl, -, -⟩ := isWeek.exists_two
    obtain ⟨g, rfl, -⟩ := isDay.exists_one
    have other : octet 'W' ≠ octet '-' := by decide
    cases hyphens
    · simp [dateEnd?, mark, other] at ends ⊢
      rw [← ends]
      exact compactWeekEnd_le _
    · simp [dateEnd?, mark] at ends ⊢
      exact hyphenWeekEnd?_le ends

/-- Where bytes are split for a date that can be read, the date is all that stands before. -/
theorem bareDate_take {bs : List Octet} {stop : Nat} {date : DateParts} (ends : dateEnd? bs = some stop)
    (read : dateParts? (bs.take stop) = some date) : BareDate (bs.take stop) ∧ (bs.take stop).length = stop := by
  obtain ⟨hyphens, written, rest, isDate, split, full⟩ := exists_of_dateParts? read
  have whole := List.take_append_drop stop bs
  have long := List.length_take_le stop bs
  rw [split, List.length_append] at long
  have bound : stop ≤ written.length := by
    rcases full with rfl | full
    · by_cases short : bs.length ≤ stop
      · rw [List.take_of_length_le short] at split
        exact dateEnd?_le isDate (.inl rfl) (split ▸ ends)
      · have reached := List.length_take_of_le (Nat.le_of_not_le short)
        rw [split, List.append_nil] at reached
        exact Nat.le_of_eq reached.symm
    · rw [← whole, split, List.append_assoc] at ends
      exact dateEnd?_le isDate (.inr full) ends
  obtain rfl : rest = [] := List.eq_nil_of_length_eq_zero (by omega)
  rw [split, List.append_nil]
  exact ⟨⟨hyphens, isDate⟩, by omega⟩

namespace BareDate

variable {bs : List Octet}

theorem dateEnd?_eq (bare : BareDate bs) : dateEnd? bs = some bs.length := by
  obtain ⟨hyphens, isDate⟩ := bare
  have other : octet 'W' ≠ octet '-' := by decide
  cases isDate with
  | @day year month day isYear isMonth isDay =>
    obtain ⟨a, b, c, d, rfl⟩ := isYear.exists_four
    obtain ⟨e, f, rfl, digit, -⟩ := isMonth.exists_two
    obtain ⟨g, h, rfl, -, -⟩ := isDay.exists_two
    obtain ⟨noWeek, noHyphen⟩ := ne_of_isDigit digit
    cases hyphens <;> simp [dateEnd?, mark, noWeek, noHyphen]
  | @week year week isYear isWeek =>
    obtain ⟨a, b, c, d, rfl⟩ := isYear.exists_four
    obtain ⟨e, f, rfl, digit, -⟩ := isWeek.exists_two
    cases hyphens <;> simp [dateEnd?, mark, hyphenWeekEnd?]
  | @weekday year week day isYear isWeek isDay =>
    obtain ⟨a, b, c, d, rfl⟩ := isYear.exists_four
    obtain ⟨e, f, rfl, -, -⟩ := isWeek.exists_two
    obtain ⟨g, rfl, digit⟩ := isDay.exists_one
    cases hyphens <;> simp [dateEnd?, mark, other, hyphenWeekEnd?, compactWeekEnd, digit]

/-- A date is written in digits, hyphens and the letter of the weeks. -/
theorem forall_mem (bare : BareDate bs) : ∀ b ∈ bs, isDigit b = true ∨ b = octet '-' ∨ b = octet 'W' := by
  obtain ⟨hyphens, isDate⟩ := bare
  have digits : ∀ {count ds}, Digits count ds → ∀ b ∈ ds, isDigit b = true ∨ b = octet '-' ∨ b = octet 'W' :=
    fun isNumber b inside => .inl (isNumber.2 b inside)
  have marks : ∀ b ∈ mark hyphens, isDigit b = true ∨ b = octet '-' ∨ b = octet 'W' := by
    cases hyphens <;> simp [mark]
  cases isDate with
  | day isYear isMonth isDay =>
    simp only [List.forall_mem_append]
    exact ⟨digits isYear, marks, digits isMonth, marks, digits isDay⟩
  | week isYear isWeek =>
    simp only [List.forall_mem_append, List.forall_mem_cons]
    exact ⟨digits isYear, marks, by simp, digits isWeek⟩
  | weekday isYear isWeek isDay =>
    simp only [List.forall_mem_append, List.forall_mem_cons]
    exact ⟨digits isYear, marks, by simp, digits isWeek, marks, digits isDay⟩

theorem not_mem (bare : BareDate bs) {b : Octet} (noDigit : isDigit b = false) (noHyphen : b ≠ octet '-')
    (noWeek : b ≠ octet 'W') : b ∉ bs := by
  intro inside
  rcases bare.forall_mem b inside with digit | hyphen | week
  · cases noDigit.symm.trans digit
  · exact noHyphen hyphen
  · exact noWeek week

theorem seven_le (bare : BareDate bs) : 7 ≤ bs.length := by
  obtain ⟨hyphens, isDate⟩ := bare
  cases isDate with
  | day isYear isMonth isDay =>
    simp only [List.length_append, isYear.1, isMonth.1, isDay.1]
    omega
  | week isYear isWeek =>
    simp only [List.length_append, List.length_cons, isYear.1, isWeek.1]
    omega
  | weekday isYear isWeek isDay =>
    simp only [List.length_append, List.length_cons, isYear.1, isWeek.1, isDay.1]
    omega

theorem week_of_length (bare : BareDate bs) (seven : bs.length = 7) : bs[4]? = some (octet 'W') := by
  obtain ⟨hyphens, isDate⟩ := bare
  cases isDate with
  | day isYear isMonth isDay =>
    simp only [List.length_append, isYear.1, isMonth.1, isDay.1] at seven
    omega
  | week isYear isWeek =>
    obtain ⟨a, b, c, d, rfl⟩ := isYear.exists_four
    cases hyphens with
    | false => rfl
    | true => simp [mark, isWeek.1] at seven
  | weekday isYear isWeek isDay =>
    simp only [List.length_append, List.length_cons, isYear.1, isWeek.1, isDay.1] at seven
    omega

theorem ascii (bare : BareDate bs) : ∀ b ∈ bs, b < 0x80 := by
  intro b inside
  rcases bare.forall_mem b inside with digit | rfl | rfl
  · exact Nat.lt_of_le_of_lt (isDigit_iff.mp digit).2 (by decide)
  · decide
  · decide

end BareDate

/-! ### Moments -/

/-- What follows the date in the text of a moment: nothing, or any one character and a time. -/
inductive AfterDate : List Char → TimeParts → Option Int → Prop where
  | nothing : AfterDate [] ⟨[], 0, true⟩ none
  | time {separator : Char} {more : List Char} {t : TimeParts} {offset : Option Int}
      (read : timeAndOffset? (octets more) = some (t, offset)) : AfterDate (separator :: more) t offset

theorem parts?_of_dateEnd? {day rest : List Char} (ends : dateEnd? (octets (day ++ rest)) = some (octets day).length) :
    parts? (octets (day ++ rest)) = (dateParts? (octets day)).bind fun date =>
      match rest with
      | [] => some (date, ⟨[], 0, true⟩, none)
      | _ :: more => (timeAndOffset? (octets more)).map (date, ·) := by
  rw [parts?, ends, octets_append, Option.bind_eq_bind, Option.bind_some, List.take_left, List.drop_left]
  cases dateParts? (octets day) with
  | none => rfl
  | some date =>
    cases rest with
    | nil => rfl
    | cons separator more =>
      have after := afterSeparator_octets separator more
      cases written : octets (separator :: more) with
      | nil => exact absurd written (octets_ne_nil (List.cons_ne_nil separator more))
      | cons b bs =>
        rw [written] at after
        simp only [Option.bind_some, after]
        cases timeAndOffset? (octets more) <;> rfl

/-- A text is read as a date, which ends where the text is split, and what follows it. -/
theorem parts?_octets_iff {cs : List Char} {date : DateParts} {time : TimeParts} {offset : Option Int} :
    parts? (octets cs) = some (date, time, offset) ↔ ∃ day rest, cs = day ++ rest ∧ BareDate (octets day) ∧
      dateEnd? (octets cs) = some (octets day).length ∧ dateParts? (octets day) = some date ∧
      AfterDate rest time offset := by
  constructor
  · intro read
    obtain ⟨stop, ends, second⟩ := Option.bind_eq_some_iff.mp read
    obtain ⟨d, isDate, -⟩ := Option.bind_eq_some_iff.mp second
    obtain ⟨bare, long⟩ := bareDate_take ends isDate
    obtain ⟨day, rest, rfl, isDay, -⟩ :=
      exists_of_octets_eq_append (List.take_append_drop stop (octets cs)).symm bare.ascii
    rw [← isDay] at bare long isDate
    rw [← long] at ends
    rw [parts?_of_dateEnd? ends, isDate, Option.bind_some] at read
    cases rest with
    | nil =>
      cases read
      exact ⟨day, [], rfl, bare, ends, isDate, .nothing⟩
    | cons separator more =>
      obtain ⟨⟨t, o⟩, timed, same⟩ := Option.map_eq_some_iff.mp read
      cases same
      exact ⟨day, _, rfl, bare, ends, isDate, .time timed⟩
  · rintro ⟨day, rest, rfl, -, ends, isDate, after⟩
    rw [parts?_of_dateEnd? ends, isDate, Option.bind_some]
    cases after with
    | nothing => rfl
    | time read => simp only [read, Option.map_some]

theorem read_eq_ok_iff {cs : List Char} {m : Moment} :
    read (String.ofList cs) = .ok m ↔ 7 ≤ cs.length ∧ ∃ date time offset,
      parts? (octets cs) = some (date, time, offset) ∧ ofParts date time offset = .ok m := by
  rw [read, String.toList_ofList]
  by_cases short : cs.length < 7
  · simp only [short, if_true]
    exact iff_of_false nofun fun long => absurd long.1 (by omega)
  · simp only [short, if_false]
    cases parts? (octets cs) with
    | none => simp
    | some parts =>
      obtain ⟨date, time, offset⟩ := parts
      simp only [Option.some.injEq, Prod.mk.injEq]
      constructor
      · intro made
        exact ⟨by omega, date, time, offset, ⟨rfl, rfl, rfl⟩, made⟩
      · rintro ⟨-, _, _, _, ⟨rfl, rfl, rfl⟩, made⟩
        exact made

theorem ofParts_eq_ok_iff {date : DateParts} {time : TimeParts} {offset : Option Int} {m : Moment} :
    ofParts date time offset = .ok m ↔ offset.mapM Offset.of = .ok m.offset ∧
      Date.of date.year date.month date.day = .ok m.date ∧
      TimeOfDay.of time.hours time.minutes time.seconds ⟨time.micros % 1000000, Nat.mod_lt _ (by decide)⟩ =
        .ok m.time := by
  simp only [ofParts, bind_eq_ok_iff, pure_eq_ok_iff]
  constructor
  · rintro ⟨o, offset, d, date, t, time, rfl⟩
    exact ⟨offset, date, time⟩
  · rintro ⟨offset, date, time⟩
    exact ⟨_, offset, _, date, _, time, rfl⟩

/-! ### Text after a moment -/

section
variable {bs : List Octet} {b : Octet} (noDigit : isDigit b = false) (noHyphen : b ≠ octet '-') (more : List Octet)
include noDigit

theorem compactWeekEnd_append (long : 7 ≤ bs.length) : compactWeekEnd (bs ++ b :: more) = compactWeekEnd bs := by
  have same : ((bs ++ b :: more).drop 7).takeWhile isDigit = (bs.drop 7).takeWhile isDigit := by
    rw [List.drop_append_of_le_length long, List.takeWhile_append]
    split_ifs with all
    · rw [List.takeWhile_cons_of_neg (by simp [noDigit]), List.append_nil]
      exact (List.takeWhile_prefix isDigit).eq_of_length all |>.symm
    · rfl
  simp only [compactWeekEnd, same]

include noHyphen

theorem hyphenWeekEnd?_append {stop : Nat} (long : 8 ≤ bs.length) (ends : hyphenWeekEnd? bs = some stop) :
    hyphenWeekEnd? (bs ++ b :: more) = some stop := by
  by_cases dash : bs[8]? = some (octet '-')
  · obtain ⟨inside, -⟩ := List.getElem?_eq_some_iff.mp dash
    have dash' : (bs ++ b :: more)[8]? = some (octet '-') := by rw [List.getElem?_append_left inside, dash]
    have notNine : bs.length ≠ 9 := by
      intro nine
      simp only [hyphenWeekEnd?, dash, nine, beq_self_eq_true, if_true] at ends
      cases ends
    have sameDigit : ((bs ++ b :: more)[10]?.map isDigit).getD false = (bs[10]?.map isDigit).getD false := by
      by_cases longer : 10 < bs.length
      · rw [List.getElem?_append_left longer]
      · have ten : bs.length = 10 := by omega
        rw [List.getElem?_append_right (by omega), ten, List.getElem?_eq_none (Nat.le_of_eq ten)]
        exact noDigit
    have notNine' : (bs ++ b :: more).length ≠ 9 := by
      rw [List.length_append, List.length_cons]
      omega
    simp only [hyphenWeekEnd?, dash, dash', notNine, notNine', sameDigit, beq_iff_eq, if_true, if_false] at ends ⊢
    exact ends
  · have dash' : (bs ++ b :: more)[8]? ≠ some (octet '-') := by
      by_cases longer : 8 < bs.length
      · rw [List.getElem?_append_left longer]
        exact dash
      · have eight : bs.length = 8 := by omega
        rw [List.getElem?_append_right (by omega), eight]
        simpa using noHyphen
    simp only [hyphenWeekEnd?, dash, dash', beq_iff_eq, if_false] at ends ⊢
    exact ends

/-- A date ends at the same place when something that can be no part of it is put after the text. -/
theorem dateEnd?_append {stop : Nat} (long : 7 ≤ bs.length) (bare : BareDate (bs.take stop))
    (ends : dateEnd? bs = some stop) : dateEnd? (bs ++ b :: more) = some stop := by
  have longer : (bs ++ b :: more).length ≠ 7 := by
    rw [List.length_append, List.length_cons]
    omega
  have fourth : (bs ++ b :: more)[4]? = bs[4]? := List.getElem?_append_left (by omega)
  have fifth : (bs ++ b :: more)[5]? = bs[5]? := List.getElem?_append_left (by omega)
  by_cases seven : bs.length = 7
  · simp only [dateEnd?, seven, beq_self_eq_true, if_true, Option.some.injEq] at ends
    subst ends
    rw [List.take_of_length_le (by omega)] at bare
    have week := bare.week_of_length seven
    have other : octet 'W' ≠ octet '-' := by decide
    have none : bs.drop 7 = [] := List.drop_of_length_le (by omega)
    simp only [dateEnd?, longer, fourth, week, Option.some.injEq, other, beq_iff_eq, if_false, if_true,
      compactWeekEnd_append noDigit more long]
    simp [compactWeekEnd, none]
  · simp only [dateEnd?, longer, seven, fourth, fifth, beq_iff_eq, if_false] at ends ⊢
    split at ends
    · rename_i hyphen
      rw [if_pos hyphen]
      split at ends
      · rename_i week
        rw [if_pos week]
        exact hyphenWeekEnd?_append noDigit noHyphen more (by omega) ends
      · rename_i month
        rw [if_neg month, ends]
    · rename_i compact
      rw [if_neg compact]
      split at ends
      · rename_i week
        rw [if_pos week, compactWeekEnd_append noDigit more long, ends]
      · rename_i month
        rw [if_neg month, ends]

end

/-- A date ends where a character follows that can be no part of it. -/
theorem BareDate.dateEnd?_cons {cs : List Char} {c : Char} (bare : BareDate (octets cs)) (ascii : c.toNat < 0x80)
    (noDigit : isDigit (octet c) = false) (noHyphen : octet c ≠ octet '-') (rest : List Char) :
    dateEnd? (octets (cs ++ c :: rest)) = some (octets cs).length := by
  rw [octets_append, octets_cons_of_lt ascii]
  refine dateEnd?_append noDigit noHyphen _ bare.seven_le ?_ bare.dateEnd?_eq
  rwa [List.take_length]

end Criteria.Calendar.Iso
