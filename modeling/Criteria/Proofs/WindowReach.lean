import Criteria.Proofs.WholeDay

/-!
How far windows reach. The days on which a window starts and stops are counted on a
calendar without ends (`firstDay`, `stopDay`), in which the months are counted from the
January of year 0 (`monthStart`). The window is the one between the dates of these days
(`resolve_eq_ok_iff`), so there is one exactly if the days that lead to it lie in the
years 1 to 9999, and it is never empty (`Condition.windows_reach`).
-/
namespace Criteria.Calendar

/-- The Sunday on which the week of a day starts; day 0 is one. -/
def sundayOf (n : Int) : Int := n - n % 7

namespace RelativeWindow

/-! ### Bounds without end -/

/-- The day on which the window at a date starts. -/
def firstDay (d : Date) : RelativeWindow → Int
  | today => d.number
  | yesterday => d.number - 1
  | thisWeek => sundayOf d.number
  | lastWeek => sundayOf d.number - 7
  | thisMonth => monthStart d.monthIndex
  | lastMonth => monthStart (d.monthIndex - 1)
  | last7Days => d.number - 7
  | last30Days => d.number - 30
  | last90Days => d.number - 90

/-- The day on which the window at a date stops. -/
def stopDay (d : Date) : RelativeWindow → Int
  | today => d.number + 1
  | yesterday => d.number
  | thisWeek => sundayOf d.number + 7
  | lastWeek => sundayOf d.number
  | thisMonth => monthStart (d.monthIndex + 1)
  | lastMonth => monthStart d.monthIndex
  | last7Days | last30Days | last90Days => d.number

/-- The days that a window is counted from, other than the date: windows of weeks are counted from the
    Sunday of the date. -/
def passedDays (d : Date) : RelativeWindow → List Int
  | thisWeek | lastWeek => [sundayOf d.number]
  | _ => []

/-- The days that the window at a date is made with. -/
def daysUsed (d : Date) (w : RelativeWindow) : List Int := w.firstDay d :: w.stopDay d :: w.passedDays d

/-- The time that the clock shows at both bounds of a window. -/
def clock (m : Moment) : RelativeWindow → TimeOfDay
  | last7Days | last30Days | last90Days => m.time
  | _ => .midnight

variable {w : RelativeWindow} {m : Moment} {window : Window} {d : Date}

/-- A window is the one of its name at a moment: it runs between the dates of its days, on the clock of
    the moment. -/
def IsWindow (w : RelativeWindow) (m : Moment) (window : Window) : Prop :=
  ∃ first stop : Date, first.number = w.firstDay m.date ∧ stop.number = w.stopDay m.date ∧
    window = ⟨⟨first, w.clock m, m.offset⟩, ⟨stop, w.clock m, m.offset⟩⟩

/-- The window at a moment is the one between the dates of its days, whatever it is counted from. -/
theorem resolve_eq_ok_iff : w.resolve (.ofMoment m) = .ok window ↔ w.IsWindow m window := by
  have date : (Now.ofMoment m).moment.date = m.date := rfl
  cases w <;> simp only [resolve, rolling, bind_eq_ok_iff, pure_eq_ok_iff, Date.addDays_eq_ok_iff, date,
    CalendarUnit.daysIntoWeek_eq, firstOfThisMonth_eq_ok_iff_number, firstOfNextMonth_eq_ok_iff_number,
    firstOfLastMonth_eq_ok_iff_number, IsWindow, firstDay, stopDay, clock, sundayOf]
  case today =>
    constructor
    · rintro ⟨stop, number, rfl⟩
      exact ⟨m.date, stop, rfl, number, rfl⟩
    · rintro ⟨first, stop, same, number, rfl⟩
      rw [Date.number_inj same]
      exact ⟨stop, number, rfl⟩
  case thisWeek =>
    constructor
    · rintro ⟨sunday, start, stop, number, rfl⟩
      exact ⟨sunday, stop, by omega, by omega, rfl⟩
    · rintro ⟨first, stop, start, number, rfl⟩
      exact ⟨first, by omega, stop, by omega, rfl⟩
  case lastWeek =>
    constructor
    · rintro ⟨sunday, start, first, back, stop, number, rfl⟩
      exact ⟨first, stop, by omega, by omega, rfl⟩
    · rintro ⟨first, stop, start, number, rfl⟩
      exact ⟨stop, by omega, first, by omega, stop, by omega, rfl⟩
  case thisMonth | lastMonth =>
    constructor
    · rintro ⟨first, start, stop, number, rfl⟩
      exact ⟨first, stop, start, number, rfl⟩
    · rintro ⟨first, stop, start, number, rfl⟩
      exact ⟨first, start, stop, number, rfl⟩
  case yesterday | last7Days | last30Days | last90Days =>
    constructor
    · rintro ⟨first, number, rfl⟩
      exact ⟨first, m.date, number, rfl, rfl⟩
    · rintro ⟨first, stop, number, same, rfl⟩
      rw [Date.number_inj same]
      exact ⟨first, number, rfl⟩

theorem firstDay_lt_stopDay (w : RelativeWindow) (d : Date) : w.firstDay d < w.stopDay d := by
  cases w with
  | thisMonth | lastMonth => exact monthStart_lt (by omega)
  | _ =>
    simp only [firstDay, stopDay]
    omega

theorem IsWindow.start_lt_stop (isWindow : w.IsWindow m window) : window.start.instant < window.stop.instant := by
  obtain ⟨first, stop, start, number, rfl⟩ := isWindow
  have order := w.firstDay_lt_stopDay m.date
  simp only [Moment.instant, Moment.wallMicros]
  unfold microsPerDay
  omega

theorem mem_daysUsed_iff {n : Int} : n ∈ w.daysUsed d ↔ n = w.firstDay d ∨ n = w.stopDay d := by
  have passed : n ∈ w.passedDays d → n = w.firstDay d ∨ n = w.stopDay d := by
    cases w <;> simp +contextual [passedDays, firstDay, stopDay]
  rw [daysUsed, List.mem_cons, List.mem_cons]
  tauto

/-- A window exists if the days that it is made with have dates. -/
theorem exists_isWindow_iff :
    (∃ window, w.IsWindow m window) ↔ ∀ n ∈ w.daysUsed m.date, 1 ≤ yearOf n ∧ yearOf n ≤ 9999 := by
  simp only [yearOf_bounds_iff, mem_daysUsed_iff, forall_eq_or_imp, forall_eq]
  constructor
  · rintro ⟨_, first, stop, start, number, -⟩
    rw [← start, ← number]
    exact ⟨first.number_bounds, stop.number_bounds⟩
  · rintro ⟨inside, inside'⟩
    obtain ⟨first, start⟩ := Date.exists_number_eq inside
    obtain ⟨stop, number⟩ := Date.exists_number_eq inside'
    exact ⟨_, first, stop, start, number, rfl⟩

/-! ### Failures -/

/-- How a window fails on a date on which it leaves the calendar: a month names the year that it runs
    into, anything else is counted beyond the days that have dates. -/
inductive EdgeFailure (d : Date) : RelativeWindow → Fault → Prop
  | january (year : d.year = 1) (month : d.month = 1) : EdgeFailure d lastMonth (.year 0)
  | december (year : d.year = 9999) (month : d.month = 12) : EdgeFailure d thisMonth (.year 10000)
  | beyond {w : RelativeWindow} (notThisMonth : w ≠ thisMonth) (notLastMonth : w ≠ lastMonth) : EdgeFailure d w .beyond

theorem edgeFailure_of_resolve_error {fault : Fault} (failed : w.resolve (.ofMoment m) = .error fault) :
    EdgeFailure m.date w fault := by
  have leaves : w.LeavesCalendar m.date := by
    by_contra stays
    have inside : ∃ window, w.resolve (.ofMoment m) = .ok window := exists_resolve_iff.mpr stays
    obtain ⟨window, made⟩ := inside
    cases failed.symm.trans made
  rw [resolve_error failed]
  cases w with
  | thisMonth => exact .december leaves.1 leaves.2
  | lastMonth => exact .january leaves.1 leaves.2
  | _ => exact .beyond nofun nofun

end RelativeWindow

end Criteria.Calendar

namespace Criteria

open Calendar (Moment Now RelativeWindow Window)

namespace Condition

variable {c : Condition} {now : Now}

theorem leaf_dateRelative (named : c.operator = Operator.dateRelative.name) {w : RelativeWindow}
    (isToken : c.value.display = w.name) : c.leaf now = (onCalendar (w.resolve now)).map Window.bounds := by
  rw [leaf_eq_leafOf named, leafOf, isToken, RelativeWindow.ofName?_name]
  rfl

theorem leaf_dateRelative_unknown (named : c.operator = Operator.dateRelative.name)
    (unknown : ∀ w : RelativeWindow, c.value.display ≠ w.name) :
    c.leaf now = .error (.unknownWindow c.value.display) := by
  have unnamed : RelativeWindow.ofName? c.value.display = none := by
    rw [Option.eq_none_iff_forall_ne_some]
    intro w found
    exact unknown w (RelativeWindow.ofName?_eq_some_iff.mp found).symm
  rw [leaf_eq_leafOf named]
  exact (Failure.unknownWindow unnamed).leafOf_eq_error

/-- On a clock that keeps its offset a window that has a name fails exactly at the ends of the calendar:
    if the days that it is made with lie in the years 1 to 9999 it is the one between its days, and
    starts before it stops; if not it fails as a window of its name does. Any other operand of
    `date_relative` fails whatever now is. -/
theorem windows_reach (named : c.operator = Operator.dateRelative.name) :
    (∀ w : RelativeWindow, c.value.display = w.name → ∀ m : Moment,
      ((∀ n ∈ w.daysUsed m.date, 1 ≤ Calendar.yearOf n ∧ Calendar.yearOf n ≤ 9999) →
        ∃ window, w.resolve (.ofMoment m) = .ok window ∧ w.IsWindow m window ∧
          window.start.instant < window.stop.instant ∧ c.leaf (.ofMoment m) = .ok window.bounds) ∧
      (¬ (∀ n ∈ w.daysUsed m.date, 1 ≤ Calendar.yearOf n ∧ Calendar.yearOf n ≤ 9999) →
        ∃ fault, w.resolve (.ofMoment m) = .error fault ∧ RelativeWindow.EdgeFailure m.date w fault ∧
          c.leaf (.ofMoment m) = .error (.calendar fault))) ∧
    ((∀ w : RelativeWindow, c.value.display ≠ w.name) →
      ∀ now : Now, c.leaf now = .error (.unknownWindow c.value.display)) := by
  refine ⟨?_, fun unknown now => leaf_dateRelative_unknown named unknown⟩
  intro w isToken m
  rw [← RelativeWindow.exists_isWindow_iff, leaf_dateRelative named isToken]
  constructor
  · rintro ⟨window, isWindow⟩
    have resolved := RelativeWindow.resolve_eq_ok_iff.mpr isWindow
    refine ⟨window, resolved, isWindow, isWindow.start_lt_stop, ?_⟩
    rw [resolved]
    rfl
  · intro leaves
    cases resolved : w.resolve (.ofMoment m) with
    | ok window => exact absurd ⟨window, RelativeWindow.resolve_eq_ok_iff.mp resolved⟩ leaves
    | error fault => exact ⟨fault, rfl, RelativeWindow.edgeFailure_of_resolve_error resolved, rfl⟩

/-- A deal closed in the window of a name. -/
def closedIn (token : String) : Condition := ⟨"closed_at", Operator.dateRelative.name, .str token, .null⟩

/-- The first week that starts on a date is that of the seventh day of year 1; the day before is in a
    week without one. The last month has no date to stop on, and no window is called `next_week`. -/
theorem windows_reach_firstWeek :
    let saturday : Moment := ⟨⟨1, 1, 6, by decide⟩, .midnight, none⟩
    let sunday : Moment := ⟨⟨1, 1, 7, by decide⟩, .midnight, none⟩
    let december : Moment := ⟨⟨9999, 12, 1, by decide⟩, .midnight, some .utc⟩
    RelativeWindow.thisWeek.resolve (.ofMoment saturday) = .error .beyond ∧
      (∃ window : Window, (closedIn "this_week").leaf (.ofMoment sunday) = .ok window.bounds ∧
        window.start.instant < window.stop.instant) ∧
      (closedIn "this_month").leaf (.ofMoment december) = .error (.calendar (.year 10000)) ∧
      (closedIn "next_week").leaf (.ofMoment sunday) = .error (.unknownWindow "next_week") := by
  intro saturday sunday december
  obtain ⟨week, -⟩ := windows_reach (c := closedIn "this_week") rfl
  obtain ⟨month, -⟩ := windows_reach (c := closedIn "this_month") rfl
  obtain ⟨-, other⟩ := windows_reach (c := closedIn "next_week") rfl
  obtain ⟨-, early⟩ := week .thisWeek rfl saturday
  obtain ⟨inside, -⟩ := week .thisWeek rfl sunday
  obtain ⟨-, late⟩ := month .thisMonth rfl december
  obtain ⟨fault, resolved, edge, -⟩ := early (by decide)
  obtain ⟨window, -, -, order, made⟩ := inside (by decide)
  obtain ⟨fault', -, edge', failed⟩ := late (by decide)
  refine ⟨?_, ⟨window, made, order⟩, ?_, other ?_ _⟩
  · cases edge
    exact resolved
  · cases edge' with
    | december => exact failed
    | beyond notThisMonth => exact absurd rfl notThisMonth
  · intro w
    cases w <;> decide

end Condition

end Criteria
