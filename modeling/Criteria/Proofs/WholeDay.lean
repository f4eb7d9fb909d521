import Criteria.Proofs.CalendarUnit
import Criteria.Proofs.Leaf

/-!
Days as windows. A date is followed by the next day of its month, by the first of the
next month or by New Year (`Date.Next`), and every date but the last one is followed by
just one. So the leaf of `date_equals` holds the moments of one date of its operand's
clock and no others (`Window.IsDayOf.holds_iff`): the days of a clock are apart, and one
stops where the next one starts (`Condition.compile_dateEquals`).
-/
namespace Criteria.Calendar

/-! ### Dates that follow one another -/

/-- The date after a date: the next day of the month, the first of the next month, or the first of
    January. -/
inductive Date.Next (d e : Date) : Prop
  | inMonth (year : e.year = d.year) (month : e.month = d.month) (day : e.day = d.day + 1)
  | month (last : d.day = monthLength d.year d.month) (year : e.year = d.year) (month : e.month = d.month + 1)
      (first : e.day = 1)
  | year (december : d.month = 12) (last : d.day = 31) (year : e.year = d.year + 1) (january : e.month = 1)
      (first : e.day = 1)

theorem monthLength_december (year : Int) : monthLength year 12 = 31 := by
  unfold monthLength
  cases isLeap year <;> rfl

namespace Date

variable {d e f : Date}

theorem number_of_nextMonth (last : d.day = monthLength d.year d.month) (first : e.day = 1)
    (index : e.monthIndex = d.monthIndex + 1) : e.number = d.number + 1 := by
  have counted := d.number_add_one
  rw [number_eq_monthStart_iff.mpr ⟨first, index⟩, monthStart_monthIndex_succ]
  omega

theorem Next.number_eq (next : d.Next e) : e.number = d.number + 1 := by
  cases next with
  | inMonth year month day =>
    have counted := d.number_add_one
    have later := e.number_add_one
    rw [year, month] at later
    omega
  | month last year month first =>
    refine number_of_nextMonth last first ?_
    unfold monthIndex
    omega
  | year december last year january first =>
    have atEnd : d.day = monthLength d.year d.month := by rw [december, monthLength_december, last]
    refine number_of_nextMonth atEnd first ?_
    unfold monthIndex
    omega

theorem Next.unique (next : d.Next e) (next' : d.Next f) : e = f :=
  number_inj (next.number_eq.trans next'.number_eq.symm)

theorem exists_next (notLast : d ≠ .last) : ∃ e, d.Next e := by
  obtain ⟨years, months, days⟩ := d.isDate
  by_cases inside : d.day < monthLength d.year d.month
  · exact ⟨⟨d.year, d.month, d.day + 1, years, months, by omega, inside⟩, .inMonth rfl rfl rfl⟩
  have atEnd : d.day = monthLength d.year d.month := by omega
  by_cases december : d.month = 12
  · rw [december, monthLength_december] at atEnd
    have early : d.year ≠ 9999 := by
      intro year
      obtain ⟨dYear, dMonth, dDay, isDate⟩ := d
      simp only at year december atEnd
      subst year december atEnd
      exact notLast rfl
    obtain ⟨e, made⟩ := exists_of_first (d.year + 1) 1 (by omega) (by omega)
    obtain ⟨year, january, first⟩ := of_eq_ok_iff.mp made
    exact ⟨e, .year december atEnd (by omega) january first⟩
  · obtain ⟨e, made⟩ := exists_of_first d.year (d.month + 1) (by omega) (by omega)
    obtain ⟨year, month, first⟩ := of_eq_ok_iff.mp made
    exact ⟨e, .month atEnd (by omega) month first⟩

/-- The date after a date is the one of the day after its day. -/
theorem next_iff : d.Next e ↔ e.number = d.number + 1 := by
  constructor
  · exact Next.number_eq
  · intro number
    have notLast : d ≠ .last := by
      rintro rfl
      have bounds := e.number_bounds
      have last : Date.last.number = lastDay := rfl
      omega
    obtain ⟨f, next⟩ := exists_next notLast
    rwa [number_inj (number.trans next.number_eq.symm)]

end Date

/-! ### Days of a clock -/

/-- A window is the day of a moment on the moment's clock: from the midnight of its date up to the one
    of the next date. -/
structure Window.IsDayOf (w : Window) (m : Moment) : Prop where
  start : w.start = ⟨m.date, .midnight, m.offset⟩
  stop : w.stop = ⟨w.stop.date, .midnight, m.offset⟩
  next : m.date.Next w.stop.date

theorem startOfDay_addDays_eq_ok_iff {m x : Moment} :
    m.startOfDay.addDays 1 = .ok x ↔ (Window.mk m.startOfDay x).IsDayOf m := by
  simp only [Moment.addDays, bind_eq_ok_iff, pure_eq_ok_iff, Moment.startOfDay, Date.addDays_eq_ok_iff, ← Date.next_iff]
  constructor
  · rintro ⟨e, next, rfl⟩
    exact ⟨rfl, rfl, next⟩
  · rintro ⟨-, stop, next⟩
    exact ⟨x.date, next, stop.symm⟩

theorem exists_isDayOf {m : Moment} (notLast : m.date ≠ .last) : ∃ w : Window, w.IsDayOf m := by
  obtain ⟨e, next⟩ := Date.exists_next notLast
  exact ⟨⟨m.startOfDay, ⟨e, .midnight, m.offset⟩⟩, rfl, rfl, next⟩

namespace Window.IsDayOf

variable {w w' : Window} {m m' : Moment}

theorem eq_between (day : w.IsDayOf m) : w = RelativeWindow.between (.ofMoment m) m.date w.stop.date := by
  obtain ⟨start, stop⟩ := w
  obtain ⟨rfl, isStop, -⟩ := day
  exact congrArg _ isStop

/-- The day of a moment holds the moments of its date, on the same clock. -/
theorem holds_iff (day : w.IsDayOf m) {x : Moment} (same : x.offset = m.offset) : w.Holds x ↔ x.date = m.date := by
  rw [day.eq_between, holds_between_iff same, day.next.number_eq]
  constructor
  · intro holds
    exact Date.number_inj (by omega)
  · intro date
    rw [date]
    omega

theorem lasts (day : w.IsDayOf m) : w.stop.instant - w.start.instant = microsPerDay := by
  rw [day.start, day.stop, instant_midnight, instant_midnight, day.next.number_eq]
  unfold microsPerDay
  omega

theorem eq_iff (day : w.IsDayOf m) (day' : w'.IsDayOf m') (same : m'.offset = m.offset) :
    w = w' ↔ m.date = m'.date := by
  constructor
  · rintro rfl
    exact (Moment.mk.inj (day.start.symm.trans day'.start)).1
  · intro date
    have next : m'.date.Next w.stop.date := date ▸ day.next
    rw [day.eq_between, day'.eq_between, next.unique day'.next, date]
    simp only [RelativeWindow.between, Now.midnight, Now.momentAt, Now.ofMoment, same]

/-- The days of two dates of a clock are apart. -/
theorem apart (day : w.IsDayOf m) (day' : w'.IsDayOf m') (same : m'.offset = m.offset) (dates : m.date ≠ m'.date)
    (x : Moment) : ¬ (w.Holds x ∧ w'.Holds x) := by
  rintro ⟨⟨after, before⟩, after', before'⟩
  rw [day.start, instant_midnight] at after
  rw [day'.start, instant_midnight, same] at after'
  rw [day.stop, instant_midnight, day.next.number_eq] at before
  rw [day'.stop, instant_midnight, day'.next.number_eq, same] at before'
  refine dates (Date.number_inj ?_)
  unfold microsPerDay at *
  omega

/-- The day of a date stops where the one of the next date starts. -/
theorem stop_eq_start (day : w.IsDayOf m) (day' : w'.IsDayOf m') (same : m'.offset = m.offset)
    (next : m.date.Next m'.date) : w.stop = w'.start := by
  rw [day.stop, day'.start, day.next.unique next, same]

end Window.IsDayOf

end Criteria.Calendar

namespace Criteria

open Calendar (Moment Now Window)

/-! ### The leaf of a day -/

/-- The leaf of a window: from its start on, and before its stop. -/
def Calendar.Window.bounds (w : Window) : Predicate := .object [("gte", .moment w.start), ("lt", .moment w.stop)]

theorem Calendar.Window.bounds_inj {w w' : Window} (same : w.bounds = w'.bounds) : w = w' := by
  obtain ⟨start, stop⟩ := w
  obtain ⟨start', stop'⟩ := w'
  simpa [bounds] using same

namespace Condition

variable {now : Now} {c c' : Condition} {m m' : Moment}

theorem leaf_dateEquals_eq_ok_iff (named : c.operator = Operator.dateEquals.name) (read : dateOperand c.value = .ok m)
    {p : Predicate} : c.leaf now = .ok p ↔ ∃ w : Window, w.IsDayOf m ∧ w.bounds = p := by
  rw [leaf_eq_leafOf named]
  simp only [leafOf, bind_eq_ok_iff, pure_eq_ok_iff, momentOf_eq_ok_iff, read, Except.ok.injEq]
  constructor
  · rintro ⟨_, rfl, stop, found, rfl⟩
    exact ⟨_, Calendar.startOfDay_addDays_eq_ok_iff.mp (onCalendar_eq_ok_iff.mp found), rfl⟩
  · rintro ⟨⟨start, stop⟩, day, rfl⟩
    obtain rfl := day.start
    exact ⟨m, rfl, stop, onCalendar_eq_ok_iff.mpr (Calendar.startOfDay_addDays_eq_ok_iff.mpr day), rfl⟩

theorem leaf_dateEquals_last (named : c.operator = Operator.dateEquals.name) (read : dateOperand c.value = .ok m)
    (last : m.date = .last) : c.leaf now = .error (.calendar .beyond) := by
  obtain ⟨fault, late⟩ := Calendar.Moment.addDays_startOfDay_error_iff.mpr last
  obtain rfl := Calendar.Moment.addDays_error late
  rw [leaf_eq_leafOf named]
  exact (Failure.noEnd read late).leafOf_eq_error

/-- Whatever now is, the leaf of `date_equals` for an operand that is read as a moment is the day of
    that moment, which only the last date has none of. For two operands on clocks of one offset the
    leaves are the same on the same date, and else apart, with no gap between a date and the next. -/
theorem compile_dateEquals (named : c.operator = Operator.dateEquals.name) (read : dateOperand c.value = .ok m)
    (place : List String → Predicate → Predicate) :
    (m.date = .last → c.compile place now = .error (.calendar .beyond)) ∧
    (m.date ≠ .last → ∃ w : Window, c.compile place now = .ok (place c.path w.bounds) ∧ w.IsDayOf m ∧
      w.stop.instant - w.start.instant = Calendar.microsPerDay ∧ w.Holds m ∧
      ∀ x, x.offset = m.offset → (w.Holds x ↔ x.date = m.date)) ∧
    ∀ {c' : Condition} {m' : Moment} {now' : Now}, c'.operator = Operator.dateEquals.name →
      dateOperand c'.value = .ok m' → m'.offset = m.offset →
      ∀ {w w' : Window}, c.leaf now = .ok w.bounds → c'.leaf now' = .ok w'.bounds →
        (c.leaf now = c'.leaf now' ↔ m.date = m'.date) ∧ (m.date ≠ m'.date → ∀ x, ¬ (w.Holds x ∧ w'.Holds x)) ∧
        (m.date.Next m'.date → w.stop = w'.start) := by
  refine ⟨fun last => compile_error_iff.mpr (leaf_dateEquals_last named read last), ?_, ?_⟩
  · intro notLast
    obtain ⟨w, day⟩ := Calendar.exists_isDayOf notLast
    have made : c.leaf now = .ok w.bounds := (leaf_dateEquals_eq_ok_iff named read).mpr ⟨w, day, rfl⟩
    exact ⟨w, compile_eq_ok_iff.mpr ⟨_, made, rfl⟩, day, day.lasts, (day.holds_iff rfl).mpr rfl,
      fun x same => day.holds_iff same⟩
  · intro c' m' now' named' read' same w w' made made'
    obtain ⟨v, day, isBounds⟩ := (leaf_dateEquals_eq_ok_iff named read).mp made
    obtain ⟨v', day', isBounds'⟩ := (leaf_dateEquals_eq_ok_iff named' read').mp made'
    obtain rfl := Calendar.Window.bounds_inj isBounds
    obtain rfl := Calendar.Window.bounds_inj isBounds'
    refine ⟨?_, day.apart day' same, day.stop_eq_start day' same⟩
    rw [made, made', Except.ok.injEq, ← day.eq_iff day' same]
    exact ⟨Calendar.Window.bounds_inj, congrArg _⟩

/-- A deal closed on the given date. -/
def closedOn (date : String) : Condition := ⟨"closed_at", Operator.dateEquals.name, .str date, .null⟩

/-- On a clock that is five and a half hours ahead, a leap day stops where the first of March starts,
    and the last day has no leaf. -/
theorem compile_dateEquals_leapDay :
    let clock : Option Calendar.Offset := some Calendar.Zone.kolkata.standard
    let late : Moment := ⟨⟨2024, 2, 29, by decide⟩, ⟨23, 30, 0, 0⟩, clock⟩
    let first : Moment := ⟨⟨2024, 3, 1, by decide⟩, .midnight, clock⟩
    let w : Window := ⟨late.startOfDay, first⟩
    let w' : Window := ⟨first, { first with date := ⟨2024, 3, 2, by decide⟩ }⟩
    let leapDay := closedOn "2024-02-29T23:30:00+05:30"
    let march := closedOn "2024-W09-5T00:00+05:30"
    let now := Now.ofMoment late
    dateOperand leapDay.value = .ok late ∧ dateOperand march.value = .ok first ∧
      leapDay.leaf now = .ok w.bounds ∧ march.leaf now = .ok w'.bounds ∧ w.stop = w'.start ∧
      (closedOn "9999-12-31").compile Predicate.nest now = .error (.calendar .beyond) := by
  intro clock late first w w' leapDay march now
  have read : dateOperand leapDay.value = .ok late := by decide
  have read' : dateOperand march.value = .ok first := by decide
  have readLast : dateOperand (closedOn "9999-12-31").value = .ok ⟨.last, .midnight, none⟩ := by decide
  have next : late.date.Next first.date := .month (by decide) rfl rfl rfl
  have next' : first.date.Next w'.stop.date := .inMonth rfl rfl rfl
  have made : leapDay.leaf now = .ok w.bounds :=
    (leaf_dateEquals_eq_ok_iff rfl read).mpr ⟨w, ⟨rfl, rfl, next⟩, rfl⟩
  have made' : march.leaf now = .ok w'.bounds :=
    (leaf_dateEquals_eq_ok_iff rfl read').mpr ⟨w', ⟨rfl, rfl, next'⟩, rfl⟩
  obtain ⟨-, -, pair⟩ := @compile_dateEquals now leapDay late rfl read Predicate.nest
  obtain ⟨-, -, meets⟩ := pair rfl read' rfl made made'
  exact ⟨read, read', made, made', meets next, (compile_dateEquals rfl readLast Predicate.nest).1 rfl⟩

end Condition

end Criteria
