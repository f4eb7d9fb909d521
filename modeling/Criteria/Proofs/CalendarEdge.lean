import Criteria.Calendar.Window
import Criteria.Proofs.DayNumber

/-!
The ends of the calendar. Counting days from a date fails only by leaving the years
1 to 9999, and the first day of a month fails only in a year outside of them; so a
window has one fault at most, which is told by its name (`resolve_error`), and the day
tells whether it has it (`exists_resolve_iff`).
-/
namespace Criteria.Calendar

theorem Date.addDays_error {d : Date} {days : Int} {fault : Fault} (failed : d.addDays days = .error fault) :
    fault = .beyond := by
  unfold addDays at failed
  split at failed
  · cases failed
  · cases failed
    rfl

theorem Moment.addDays_error {m : Moment} {days : Int} {fault : Fault} (failed : m.addDays days = .error fault) :
    fault = .beyond := by
  rcases bind_eq_error_iff.mp failed with date | ⟨d, -, impossible⟩
  · exact Date.addDays_error date
  · exact absurd impossible pure_ne_error

/-- The last day that has a date. -/
def Date.last : Date := ⟨9999, 12, 31, by decide⟩

/-- Only the last day has no end. -/
theorem Moment.addDays_startOfDay_error_iff {m : Moment} :
    (∃ fault, m.startOfDay.addDays 1 = .error fault) ↔ m.date = .last := by
  have bounds := m.date.number_bounds
  have number : Date.last.number = lastDay := rfl
  rw [exists_error_iff, Moment.addDays, exists_bind_eq_ok_iff]
  simp only [exists_pure_eq_ok, and_true, startOfDay, Date.exists_addDays_iff]
  constructor
  · intro beyond
    exact Date.number_inj (by omega)
  · intro last
    rw [last]
    omega

theorem le_of_mem_monthLengths (leap : Bool) : ∀ n ∈ monthLengths leap, 28 ≤ n := by
  cases leap <;> decide

theorem le_monthLength (year : Int) {month : Nat} (months : 1 ≤ month ∧ month ≤ 12) :
    28 ≤ monthLength year month := by
  have inside : month - 1 < (monthLengths (isLeap year)).length := by
    simp only [monthLengths, List.length_cons, List.length_nil]
    omega
  have nonzero : (month == 0) = false := by
    rw [beq_eq_false_iff_ne]
    omega
  rw [monthLength, nonzero, if_neg Bool.false_ne_true, List.getD_eq_getElem?_getD,
    List.getElem?_eq_getElem inside]
  exact le_of_mem_monthLengths _ _ (List.getElem_mem inside)

/-- Every month of the years 1 to 9999 has a first day. -/
theorem Date.exists_of_first (year : Int) (month : Nat) (years : 1 ≤ year ∧ year ≤ 9999)
    (months : 1 ≤ month ∧ month ≤ 12) : ∃ d, Date.of year month 1 = .ok d := by
  have long := le_monthLength year.toNat months
  have isDate : IsDate year.toNat month 1 := ⟨by omega, months, Nat.le_refl 1, by omega⟩
  refine ⟨⟨year.toNat, month, 1, isDate⟩, ?_⟩
  simp only [Date.of, isDate, Bool.or_eq_true, decide_eq_true_eq, dite_true]
  rw [if_neg (by omega), if_neg (by omega)]

theorem Date.of_outside {year : Int} (month day : Nat) (outside : year < 1 ∨ 9999 < year) :
    Date.of year month day = .error (.year year) := by
  rw [Date.of, if_pos (by simpa using outside)]

namespace RelativeWindow

/-- The fault of a window one of whose dates lies outside the years 1 to 9999: a window
    of months names the year that it runs into. -/
def edgeFault : RelativeWindow → Fault
  | thisMonth => .year 10000
  | lastMonth => .year 0
  | _ => .beyond

theorem exists_firstOfMonth (d : Date) : ∃ e, firstOfMonth d.year d.month = .ok e := by
  obtain ⟨years, months, -⟩ := d.isDate
  obtain ⟨e, found⟩ := Date.exists_of_first d.year d.month (by omega) months
  refine ⟨e, ?_⟩
  rw [firstOfMonth, if_neg (by omega), if_neg (by omega), found]

theorem firstOfNextMonth_error {d : Date} {fault : Fault}
    (failed : firstOfMonth d.year (d.month + 1) = .error fault) : fault = .year 10000 := by
  obtain ⟨years, months, -⟩ := d.isDate
  rw [firstOfMonth, if_neg (by omega)] at failed
  split at failed
  · by_cases last : d.year = 9999
    · rw [last, Date.of_outside _ _ (by omega)] at failed
      cases failed
      rfl
    · obtain ⟨e, found⟩ := Date.exists_of_first (d.year + 1) 1 (by omega) (by omega)
      rw [found] at failed
      cases failed
  · obtain ⟨e, found⟩ := Date.exists_of_first d.year (d.month + 1) (by omega) (by omega)
    rw [found] at failed
    cases failed

theorem firstOfLastMonth_error {d : Date} {fault : Fault}
    (failed : firstOfMonth d.year (d.month - 1) = .error fault) : fault = .year 0 := by
  obtain ⟨years, months, -⟩ := d.isDate
  rw [firstOfMonth] at failed
  split at failed
  · by_cases first : d.year = 1
    · rw [first, Date.of_outside _ _ (by omega)] at failed
      cases failed
      rfl
    · obtain ⟨e, found⟩ := Date.exists_of_first (d.year - 1) 12 (by omega) (by omega)
      rw [found] at failed
      cases failed
  · obtain ⟨e, found⟩ := Date.exists_of_first d.year (d.month - 1) (by omega) (by omega)
    rw [if_neg (by omega), found] at failed
    cases failed

theorem resolve_error {w : RelativeWindow} {now : Now} {fault : Fault} (failed : w.resolve now = .error fault) :
    fault = w.edgeFault := by
  obtain ⟨first, found⟩ := exists_firstOfMonth now.moment.date
  cases w <;> simp only [resolve, rolling, bind_eq_error_iff, pure_ne_error, and_false, exists_false, or_false]
    at failed
  case thisMonth =>
    rcases failed with start | ⟨e, -, stop⟩
    · rw [found] at start
      cases start
    · exact firstOfNextMonth_error stop
  case lastMonth =>
    rcases failed with start | ⟨e, -, stop⟩
    · exact firstOfLastMonth_error start
    · rw [found] at stop
      cases stop
  case thisWeek =>
    rcases failed with sunday | ⟨e, -, stop⟩
    · exact Date.addDays_error sunday
    · exact Date.addDays_error stop
  case lastWeek =>
    rcases failed with sunday | ⟨e, -, start | ⟨f, -, stop⟩⟩
    · exact Date.addDays_error sunday
    · exact Date.addDays_error start
    · exact Date.addDays_error stop
  all_goals exact Date.addDays_error failed

/-- On a given day a date that a window is counted from, or a bound of it, lies outside
    the years 1 to 9999. -/
def LeavesCalendar (d : Date) : RelativeWindow → Prop
  | today => lastDay < d.number + 1
  | yesterday => d.number - 1 < 1
  | thisWeek => d.number - daysIntoWeek d < 1 ∨ lastDay < d.number - daysIntoWeek d + 7
  | lastWeek => d.number - daysIntoWeek d - 7 < 1
  | thisMonth => d.year = 9999 ∧ d.month = 12
  | lastMonth => d.year = 1 ∧ d.month = 1
  | last7Days => d.number - 7 < 1
  | last30Days => d.number - 30 < 1
  | last90Days => d.number - 90 < 1

theorem exists_firstOfNextMonth_iff {d : Date} :
    (∃ e, firstOfMonth d.year (d.month + 1) = .ok e) ↔ ¬ (d.year = 9999 ∧ d.month = 12) := by
  obtain ⟨years, months, -⟩ := d.isDate
  rw [firstOfMonth, if_neg (by omega)]
  by_cases december : d.month = 12
  · rw [if_pos (by omega)]
    by_cases last : d.year = 9999
    · rw [last, Date.of_outside _ _ (by omega)]
      exact iff_of_false nofun (by simp [december])
    · exact iff_of_true (Date.exists_of_first _ _ (by omega) (by omega)) (by simp [last])
  · rw [if_neg (by omega)]
    exact iff_of_true (Date.exists_of_first _ _ (by omega) (by omega)) (by simp [december])

theorem exists_firstOfLastMonth_iff {d : Date} :
    (∃ e, firstOfMonth d.year (d.month - 1) = .ok e) ↔ ¬ (d.year = 1 ∧ d.month = 1) := by
  obtain ⟨years, months, -⟩ := d.isDate
  rw [firstOfMonth]
  by_cases january : d.month = 1
  · rw [if_pos (by omega)]
    by_cases first : d.year = 1
    · rw [first, Date.of_outside _ _ (by omega)]
      exact iff_of_false nofun (by simp [january])
    · exact iff_of_true (Date.exists_of_first _ _ (by omega) (by omega)) (by simp [first])
  · rw [if_neg (by omega), if_neg (by omega)]
    exact iff_of_true (Date.exists_of_first _ _ (by omega) (by omega)) (by simp [january])

/-- There is a window exactly on the days on which none of its dates leaves the calendar. -/
theorem exists_resolve_iff {w : RelativeWindow} {now : Now} :
    (∃ window, w.resolve now = .ok window) ↔ ¬ w.LeavesCalendar now.moment.date := by
  have bounds := now.moment.date.number_bounds
  have back : ∀ days : Int, 0 ≤ days →
      ((∃ e, now.moment.date.addDays (-days) = .ok e) ↔ ¬ now.moment.date.number - days < 1) := by
    intro days positive
    rw [Date.exists_addDays_iff]
    omega
  cases w <;> simp only [resolve, rolling, LeavesCalendar, exists_bind_eq_ok_iff, exists_pure_eq_ok, and_true]
  case today =>
    rw [Date.exists_addDays_iff]
    omega
  case yesterday => exact back 1 (by omega)
  case thisWeek =>
    simp only [Date.exists_addDays_iff]
    simp only [Date.addDays_eq_ok_iff]
    constructor
    · rintro ⟨sunday, number, stop⟩
      have := sunday.number_bounds
      omega
    · intro inside
      obtain ⟨sunday, number⟩ := @Date.exists_number_eq
        (now.moment.date.number + -(daysIntoWeek now.moment.date : Int)) (by omega)
      exact ⟨sunday, number, by omega⟩
  case lastWeek =>
    simp only [Date.exists_addDays_iff]
    simp only [Date.addDays_eq_ok_iff]
    constructor
    · rintro ⟨sunday, number, before, start, -⟩
      have := before.number_bounds
      omega
    · intro inside
      obtain ⟨sunday, number⟩ := @Date.exists_number_eq
        (now.moment.date.number + -(daysIntoWeek now.moment.date : Int)) (by omega)
      obtain ⟨before, start⟩ := @Date.exists_number_eq (sunday.number + -7) (by omega)
      exact ⟨sunday, number, before, start, by omega⟩
  case thisMonth =>
    obtain ⟨first, found⟩ := exists_firstOfMonth now.moment.date
    rw [found, ← exists_firstOfNextMonth_iff]
    simp
  case lastMonth =>
    obtain ⟨first, found⟩ := exists_firstOfMonth now.moment.date
    rw [found, ← exists_firstOfLastMonth_iff]
    simp
  case last7Days => exact back 7 (by omega)
  case last30Days => exact back 30 (by omega)
  case last90Days => exact back 90 (by omega)

end RelativeWindow

end Criteria.Calendar
