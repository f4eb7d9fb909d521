import Mathlib.Algebra.GroupWithZero.Nat
import Criteria.Calendar.Date
import Criteria.Proofs.Outcome

/-!
Days and their numbers. The dates of the years 1 to 9999 are the days from 1 to
`lastDay`, each day having one date (`Date.number_bounds`, `Date.exists_number_eq`,
`Date.ofNumber?_eq_some_iff`). So there is a date some days later exactly if the number
of its day is among them (`Date.addDays_eq_ok_iff`, `Date.exists_addDays_iff`).
-/
namespace Criteria.Calendar

/-- The number of the last day that has a date. -/
def lastDay : Int := 3652059

/-! ### Years -/

theorem daysBeforeYear_succ (year : Int) :
    daysBeforeYear (year + 1) = daysBeforeYear year + (monthLengths (isLeap year)).sum := by
  have leapDays : ((monthLengths (isLeap year)).sum : Int) = if isLeap year then 366 else 365 := by
    cases isLeap year <;> rfl
  rw [leapDays]
  unfold daysBeforeYear isLeap
  simp only [Bool.and_eq_true, Bool.or_eq_true, beq_iff_eq, bne_iff_ne]
  split <;> omega

theorem daysBeforeYear_le {year later : Int} (order : year ≤ later) : daysBeforeYear year ≤ daysBeforeYear later := by
  unfold daysBeforeYear
  omega

theorem yearOf_eq {year n : Int} (after : daysBeforeYear year < n) (before : n ≤ daysBeforeYear (year + 1)) :
    yearOf n = year := by
  obtain ⟨start, stop⟩ := before_yearOf n
  by_contra other
  rcases Int.lt_or_gt_of_ne other with earlier | later
  · have := daysBeforeYear_le (show yearOf n + 1 ≤ year by omega)
    omega
  · have := daysBeforeYear_le (show year + 1 ≤ yearOf n by omega)
    omega

theorem yearOf_bounds_iff {n : Int} : 1 ≤ yearOf n ∧ yearOf n ≤ 9999 ↔ 1 ≤ n ∧ n ≤ lastDay := by
  obtain ⟨start, stop⟩ := before_yearOf n
  have first : daysBeforeYear 1 = 0 := rfl
  have last : daysBeforeYear 10000 = lastDay := rfl
  constructor
  · rintro ⟨low, high⟩
    have := daysBeforeYear_le low
    have := daysBeforeYear_le (show yearOf n + 1 ≤ 10000 by omega)
    omega
  · rintro ⟨low, high⟩
    by_contra outside
    by_cases early : yearOf n < 1
    · have := daysBeforeYear_le (show yearOf n + 1 ≤ 1 by omega)
      omega
    · have := daysBeforeYear_le (show 10000 ≤ yearOf n by omega)
      omega

/-! ### Months -/

theorem monthAndDay_append (month : Nat) (before : List Nat) (length : Nat) (after : List Nat) {day : Nat}
    (inside : 1 ≤ day ∧ day ≤ length) :
    monthAndDay month (before ++ length :: after) (before.sum + day) = (month + before.length, day) := by
  induction before generalizing month with
  | nil => simp [monthAndDay, inside.2]
  | cons first rest ih =>
    have past : ¬ first + rest.sum + day ≤ first := by omega
    have left : first + rest.sum + day - first = rest.sum + day := by omega
    rw [List.cons_append, List.sum_cons, monthAndDay, if_neg past, left, ih, List.length_cons]
    congr 1
    omega

/-- Every day of a span lies in one of the months that the span is made of. -/
theorem exists_month (lengths : List Nat) {day : Nat} (inside : 1 ≤ day ∧ day ≤ lengths.sum) :
    ∃ before length after rest, lengths = before ++ length :: after ∧ day = before.sum + rest ∧
      1 ≤ rest ∧ rest ≤ length := by
  induction lengths generalizing day with
  | nil => simp only [List.sum_nil] at inside; omega
  | cons first others ih =>
    by_cases short : day ≤ first
    · exact ⟨[], first, others, day, rfl, by simp, inside.1, short⟩
    · rw [List.sum_cons] at inside
      obtain ⟨before, length, after, rest, rfl, split, bounds⟩ := @ih (day - first) (by omega)
      refine ⟨first :: before, length, after, rest, rfl, ?_, bounds⟩
      rw [List.sum_cons]
      omega

theorem daysBeforeMonth_eq {year : Int} {before after : List Nat} {length : Nat}
    (split : monthLengths (isLeap year) = before ++ length :: after) :
    daysBeforeMonth year (before.length + 1) = before.sum := by
  rw [daysBeforeMonth, split, Nat.add_sub_cancel, List.take_left]
  rfl

theorem monthLength_eq {year : Int} {before after : List Nat} {length : Nat}
    (split : monthLengths (isLeap year) = before ++ length :: after) :
    monthLength year (before.length + 1) = length := by
  rw [monthLength, split]
  simp

theorem exists_split {year : Int} {month : Nat} (months : 1 ≤ month ∧ month ≤ 12) :
    ∃ before after, monthLengths (isLeap year) = before ++ monthLength year month :: after ∧
      month = before.length + 1 := by
  have inside : month - 1 < (monthLengths (isLeap year)).length := by
    simp only [monthLengths, List.length_cons, List.length_nil]
    omega
  have split := (List.take_append_drop (month - 1) (monthLengths (isLeap year))).symm
  rw [List.drop_eq_getElem_cons inside] at split
  have counted : month = ((monthLengths (isLeap year)).take (month - 1)).length + 1 := by
    rw [List.length_take_of_le (Nat.le_of_lt inside)]
    omega
  have long := monthLength_eq split
  rw [← counted] at long
  exact ⟨_, _, long ▸ split, counted⟩

/-! ### Dates -/

theorem civil_dayNumber {year month day : Nat} (isDate : IsDate year month day) :
    civil (dayNumber year month day) = ((year : Int), month, day) := by
  obtain ⟨-, months, days⟩ := isDate
  obtain ⟨before, after, split, rfl⟩ := @exists_split year month months
  have number : dayNumber year (before.length + 1) day = daysBeforeYear year + (before.sum + day : Nat) := by
    rw [dayNumber, daysBeforeMonth_eq split]
    omega
  have yearDays : before.sum + day ≤ (monthLengths (isLeap year)).sum := by
    rw [split, List.sum_append, List.sum_cons]
    omega
  have inYear : yearOf (dayNumber year (before.length + 1) day) = year := by
    have next := daysBeforeYear_succ year
    exact yearOf_eq (by omega) (by omega)
  have rest : (dayNumber year (before.length + 1) day - daysBeforeYear year).toNat = before.sum + day := by omega
  simp only [civil, inYear, rest]
  rw [split, monthAndDay_append 1 before _ after days, Nat.add_comm]

namespace Date

theorem ofNumber?_number (d : Date) : ofNumber? d.number = some d := by
  have years := d.isDate.1
  rw [ofNumber?, number, civil_dayNumber d.isDate]
  have valid : 1 ≤ (d.year : Int) ∧ IsDate (d.year : Int).toNat d.month d.day := by
    rw [Int.toNat_natCast]
    exact ⟨by omega, d.isDate⟩
  simp only
  rw [dif_pos valid]
  simp only [Int.toNat_natCast]

theorem number_inj {d e : Date} (same : d.number = e.number) : d = e := by
  have found := ofNumber?_number d
  rw [same, ofNumber?_number] at found
  exact (Option.some.inj found).symm

theorem number_bounds (d : Date) : 1 ≤ d.number ∧ d.number ≤ lastDay := by
  have found : yearOf d.number = d.year := congrArg Prod.fst (civil_dayNumber d.isDate)
  rw [← yearOf_bounds_iff, found]
  have years := d.isDate.1
  omega

/-- Each of the days from 1 to `lastDay` has a date. -/
theorem exists_number_eq {n : Int} (inside : 1 ≤ n ∧ n ≤ lastDay) : ∃ d : Date, d.number = n := by
  obtain ⟨start, stop⟩ := before_yearOf n
  have next := daysBeforeYear_succ (yearOf n)
  have years := yearOf_bounds_iff.mpr inside
  obtain ⟨before, length, after, rest, split, counted, positive, short⟩ :=
    @exists_month (monthLengths (isLeap (yearOf n))) (n - daysBeforeYear (yearOf n)).toNat (by omega)
  have months : before.length + 1 + after.length = 12 := by
    have twelve : (monthLengths (isLeap (yearOf n))).length = 12 := rfl
    rw [split, List.length_append, List.length_cons] at twelve
    omega
  have whole : ((yearOf n).toNat : Int) = yearOf n := Int.toNat_of_nonneg (by omega)
  have isDate : IsDate (yearOf n).toNat (before.length + 1) rest := by
    refine ⟨by omega, by omega, positive, ?_⟩
    rwa [whole, monthLength_eq split]
  refine ⟨⟨_, _, _, isDate⟩, ?_⟩
  change dayNumber (yearOf n).toNat (before.length + 1) rest = n
  rw [whole, dayNumber, daysBeforeMonth_eq split]
  omega

theorem ofNumber?_eq_some_iff {n : Int} {d : Date} : ofNumber? n = some d ↔ d.number = n := by
  constructor
  · intro found
    have inside : 1 ≤ n ∧ n ≤ lastDay := by
      rw [ofNumber?] at found
      simp only at found
      split at found
      · rename_i valid
        rw [← yearOf_bounds_iff]
        have years := valid.2.1
        have positive := valid.1
        simp only [civil] at years positive
        omega
      · cases found
    obtain ⟨e, rfl⟩ := exists_number_eq inside
    rw [ofNumber?_number] at found
    rw [Option.some.inj found]
  · rintro rfl
    exact ofNumber?_number d

theorem addDays_eq_ok_iff {d e : Date} {days : Int} : d.addDays days = .ok e ↔ e.number = d.number + days := by
  refine Iff.trans ?_ ofNumber?_eq_some_iff
  unfold addDays
  split
  · rename_i f found
    rw [found, Except.ok.injEq, Option.some.injEq]
  · rename_i beyond
    rw [beyond]
    exact iff_of_false nofun nofun

theorem exists_addDays_iff {d : Date} {days : Int} :
    (∃ e, d.addDays days = .ok e) ↔ 1 ≤ d.number + days ∧ d.number + days ≤ lastDay := by
  simp only [addDays_eq_ok_iff]
  constructor
  · rintro ⟨e, found⟩
    exact found ▸ e.number_bounds
  · exact exists_number_eq

end Date

end Criteria.Calendar
