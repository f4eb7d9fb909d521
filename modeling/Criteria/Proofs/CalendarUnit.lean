import Mathlib.Order.Monotone.Basic
import Criteria.Proofs.CalendarEdge

/-!
Days, weeks and months on a clock that keeps its offset. The window of a unit at a
moment is the span of the unit that holds the moment, if both bounds have a date
(`resolve_current_iff`), and the window before it is the span that ends where this one
starts (`resolve_previous_iff`). As no two spans of a unit share a day (`eq_of_has`),
the windows of a unit follow one another without a gap, and every moment in one of them
has that window (`CalendarUnit.windows_tile`). Months are counted without end from the
January of year 0 (`monthStart`), so that the one before and the one after a month are
found by counting too.
-/
namespace Criteria.Calendar

/-! ### Dates and moments -/

theorem Date.of_eq_ok_iff {year : Int} {month day : Nat} {d : Date} :
    Date.of year month day = .ok d ↔ (d.year : Int) = year ∧ d.month = month ∧ d.day = day := by
  constructor
  · intro made
    unfold Date.of at made
    split at made
    · cases made
    · rename_i years
      simp only [Bool.or_eq_true, decide_eq_true_eq, not_or] at years
      split at made
      · cases made
      · split at made
        · cases made
          exact ⟨Int.toNat_of_nonneg (by omega), rfl, rfl⟩
        · cases made
  · rintro ⟨rfl, rfl, rfl⟩
    obtain ⟨years, months, -⟩ := d.isDate
    have valid : IsDate (d.year : Int).toNat d.month d.day := d.isDate
    unfold Date.of
    rw [if_neg (by simp; omega), if_neg (by simp; omega), dif_pos valid]
    rfl

theorem TimeOfDay.micros_lt (t : TimeOfDay) : (t.micros : Int) < microsPerDay := by
  have hour := t.hour.isLt
  have minute := t.minute.isLt
  have second := t.second.isLt
  have micro := t.micro.isLt
  unfold TimeOfDay.micros microsPerDay
  omega

theorem instant_midnight (d : Date) (offset : Option Offset) :
    (Moment.mk d .midnight offset).instant = d.number * microsPerDay - (offset.map (·.micros)).getD 0 := by
  have midnight : TimeOfDay.midnight.micros = 0 := rfl
  simp only [Moment.instant, Moment.wallMicros, midnight, Int.natCast_zero, Int.add_zero]

theorem start_between (now : Moment) (first next : Date) :
    (RelativeWindow.between (.ofMoment now) first next).start = ⟨first, .midnight, now.offset⟩ := rfl

theorem stop_between (now : Moment) (first next : Date) :
    (RelativeWindow.between (.ofMoment now) first next).stop = ⟨next, .midnight, now.offset⟩ := rfl

/-- A window holds a moment: it starts no later, and it stops later. -/
def Window.Holds (w : Window) (x : Moment) : Prop := w.start.instant ≤ x.instant ∧ x.instant < w.stop.instant

theorem holds_between_iff {now x : Moment} {first next : Date} (same : x.offset = now.offset) :
    (RelativeWindow.between (.ofMoment now) first next).Holds x ↔
      first.number ≤ x.date.number ∧ x.date.number < next.number := by
  have early := x.time.micros_lt
  rw [Window.Holds, start_between, stop_between, instant_midnight, instant_midnight, Moment.instant, Moment.wallMicros,
    same]
  unfold microsPerDay at *
  omega

/-! ### Months -/

theorem dayNumber_eq_add (year : Int) (month day : Nat) :
    dayNumber year month day + 1 = dayNumber year month 1 + day := by
  unfold dayNumber
  omega

/-- The first day of the month after a month; December is followed by January. -/
theorem dayNumber_nextMonth (year : Int) {month : Nat} (months : 1 ≤ month ∧ month ≤ 12) :
    (if month = 12 then dayNumber (year + 1) 1 1 else dayNumber year (month + 1) 1) =
      dayNumber year month 1 + monthLength year month := by
  obtain ⟨before, after, split, rfl⟩ := @exists_split year month months
  have start := daysBeforeMonth_eq split
  have twelve : (monthLengths (isLeap year)).length = 12 := rfl
  by_cases december : before.length + 1 = 12
  · have last : after = [] := by
      rw [split] at twelve
      simp only [List.length_append, List.length_cons] at twelve
      exact List.eq_nil_of_length_eq_zero (by omega)
    have whole := daysBeforeYear_succ year
    rw [split, last, List.sum_append, List.sum_singleton] at whole
    have january : daysBeforeMonth (year + 1) 1 = 0 := rfl
    rw [if_pos december]
    unfold dayNumber
    rw [whole, start, january]
    omega
  · have next : daysBeforeMonth year (before.length + 1 + 1) = before.sum + monthLength year (before.length + 1) := by
      have longer : monthLengths (isLeap year) = (before ++ [monthLength year (before.length + 1)]) ++ after := by
        rw [split]
        simp
      rw [daysBeforeMonth, longer, Nat.add_sub_cancel, List.take_left' (by simp)]
      change (before ++ [_]).sum = _
      simp
    rw [if_neg december]
    unfold dayNumber
    rw [next, start]
    omega

theorem yearOf_firstOfMonth (year : Int) {month : Nat} (months : 1 ≤ month ∧ month ≤ 12) :
    yearOf (dayNumber year month 1) = year := by
  obtain ⟨before, after, split, rfl⟩ := @exists_split year month months
  have long := le_monthLength year months
  have whole := daysBeforeYear_succ year
  rw [split, List.sum_append, List.sum_cons] at whole
  have number : dayNumber year (before.length + 1) 1 = daysBeforeYear year + (before.sum + 1) := by
    rw [dayNumber, daysBeforeMonth_eq split]
    omega
  exact yearOf_eq (by omega) (by omega)

/-- The first day of a month. Month 0 is the January of year 0. -/
def monthStart (k : Int) : Int := dayNumber (k / 12) ((k % 12).toNat + 1) 1

theorem monthStart_eq (year : Int) {month : Nat} (months : 1 ≤ month ∧ month ≤ 12) :
    monthStart (12 * year + (month - 1)) = dayNumber year month 1 := by
  have isYear : (12 * year + ((month : Int) - 1)) / 12 = year := by omega
  have isMonth : ((12 * year + ((month : Int) - 1)) % 12).toNat + 1 = month := by omega
  rw [monthStart, isYear, isMonth]

theorem monthStart_next (year : Int) {month : Nat} (months : 1 ≤ month ∧ month ≤ 12) :
    monthStart (12 * year + month) = dayNumber year month 1 + monthLength year month := by
  rw [← dayNumber_nextMonth year months]
  by_cases december : month = 12
  · have january : 12 * year + (month : Int) = 12 * (year + 1) + (((1 : Nat) : Int) - 1) := by omega
    rw [if_pos december, january, monthStart_eq _ (by omega)]
  · have next : 12 * year + (month : Int) = 12 * year + (((month + 1 : Nat) : Int) - 1) := by omega
    rw [if_neg december, next, monthStart_eq _ (by omega)]

theorem monthStart_lt {j k : Int} (order : j < k) : monthStart j < monthStart k := by
  refine strictMono_int_of_lt_succ ?_ order
  intro k
  have months : 1 ≤ (k % 12).toNat + 1 ∧ (k % 12).toNat + 1 ≤ 12 := by omega
  have long := le_monthLength (k / 12) months
  have next := monthStart_next (k / 12) months
  have index : 12 * (k / 12) + (((k % 12).toNat + 1 : Nat) : Int) = k + 1 := by omega
  rw [← index, next, monthStart]
  omega

theorem monthStart_inj {j k : Int} : monthStart j = monthStart k ↔ j = k := by
  constructor
  · intro same
    by_contra other
    rcases Int.lt_or_gt_of_ne other with earlier | later
    · have := monthStart_lt earlier
      omega
    · have := monthStart_lt later
      omega
  · rintro rfl
    rfl

namespace Date

theorem number_add_one (d : Date) : d.number + 1 = dayNumber d.year d.month 1 + d.day :=
  dayNumber_eq_add d.year d.month d.day

theorem number_of_first {d : Date} (first : d.day = 1) : d.number = dayNumber d.year d.month 1 := by
  have counted := d.number_add_one
  omega

/-- The days of a month are those from its first on, as many as the month is long. -/
theorem inMonth_iff {first x : Date} (isFirst : first.day = 1) :
    first.number ≤ x.number ∧ x.number < first.number + monthLength first.year first.month ↔
      x.year = first.year ∧ x.month = first.month := by
  have start := number_of_first isFirst
  constructor
  · rintro ⟨low, high⟩
    -- The date of that day of the month has the same number, so it is the date.
    have isDate : IsDate first.year first.month (x.number - first.number + 1).toNat := by
      refine ⟨first.isDate.1, first.isDate.2.1, by omega, by omega⟩
    have counted := number_add_one ⟨_, _, _, isDate⟩
    have same : x = ⟨_, _, _, isDate⟩ := number_inj (by simp only at counted; omega)
    rw [same]
    exact ⟨rfl, rfl⟩
  · rintro ⟨year, month⟩
    have counted := x.number_add_one
    have days := x.isDate.2.2
    rw [year, month] at counted days
    omega

theorem eq_of_first {d e : Date} (year : d.year = e.year) (month : d.month = e.month) (first : d.day = 1)
    (first' : e.day = 1) : d = e := by
  apply number_inj
  rw [number_of_first first, number_of_first first', year, month]

theorem of_first_eq_ok_iff {year : Int} {month : Nat} (months : 1 ≤ month ∧ month ≤ 12) {d : Date} :
    Date.of year month 1 = .ok d ↔ d.number = dayNumber year month 1 := by
  have found : ∀ {e : Date}, Date.of year month 1 = .ok e → e.number = dayNumber year month 1 := by
    intro e made
    obtain ⟨rfl, rfl, first⟩ := of_eq_ok_iff.mp made
    exact number_of_first first
  constructor
  · exact found
  · intro number
    have years := yearOf_bounds_iff.mpr d.number_bounds
    rw [number, yearOf_firstOfMonth year months] at years
    obtain ⟨e, made⟩ := exists_of_first year month years months
    rw [made, number_inj ((found made).trans number.symm)]

/-- The month that a date lies in. -/
def monthIndex (d : Date) : Int := 12 * d.year + (d.month - 1)

theorem number_eq_monthStart_iff {d : Date} {k : Int} : d.number = monthStart k ↔ d.day = 1 ∧ d.monthIndex = k := by
  have months := d.isDate.2.1
  rw [monthStart, ← of_first_eq_ok_iff (by omega), of_eq_ok_iff, monthIndex]
  omega

theorem monthStart_monthIndex_succ (d : Date) :
    monthStart (d.monthIndex + 1) = dayNumber d.year d.month 1 + monthLength d.year d.month := by
  rw [← monthStart_next d.year d.isDate.2.1, monthIndex]
  congr 1
  omega

end Date

namespace RelativeWindow

theorem firstOfMonth_eq_ok_iff {d first : Date} :
    firstOfMonth d.year d.month = .ok first ↔ first.year = d.year ∧ first.month = d.month ∧ first.day = 1 := by
  have months := d.isDate.2.1
  rw [firstOfMonth, if_neg (by omega), if_neg (by omega), Date.of_eq_ok_iff, Int.natCast_inj]

theorem firstOfMonth_eq_ok_iff_number {year : Int} {month : Nat} (near : month ≤ 13) {d : Date} :
    firstOfMonth year month = .ok d ↔ d.number = monthStart (12 * year + (month - 1)) := by
  rw [firstOfMonth]
  by_cases early : month < 1
  · have december : 12 * year + ((month : Int) - 1) = 12 * (year - 1) + (((12 : Nat) : Int) - 1) := by omega
    rw [if_pos early, Date.of_first_eq_ok_iff (by omega), december, monthStart_eq _ (by omega)]
  by_cases late : 12 < month
  · have january : 12 * year + ((month : Int) - 1) = 12 * (year + 1) + (((1 : Nat) : Int) - 1) := by omega
    rw [if_neg early, if_pos late, Date.of_first_eq_ok_iff (by omega), january, monthStart_eq _ (by omega)]
  · rw [if_neg early, if_neg late, Date.of_first_eq_ok_iff (by omega), monthStart_eq _ (by omega)]

theorem firstOfThisMonth_eq_ok_iff_number {d first : Date} :
    firstOfMonth d.year d.month = .ok first ↔ first.number = monthStart d.monthIndex := by
  have months := d.isDate.2.1
  rw [firstOfMonth_eq_ok_iff_number (by omega), Date.monthIndex]

theorem firstOfNextMonth_eq_ok_iff_number {d next : Date} :
    firstOfMonth d.year (d.month + 1) = .ok next ↔ next.number = monthStart (d.monthIndex + 1) := by
  have index : 12 * (d.year : Int) + (((d.month + 1 : Nat) : Int) - 1) = d.monthIndex + 1 := by
    unfold Date.monthIndex
    omega
  have months := d.isDate.2.1
  rw [firstOfMonth_eq_ok_iff_number (by omega), index]

theorem firstOfLastMonth_eq_ok_iff_number {d before : Date} :
    firstOfMonth d.year (d.month - 1) = .ok before ↔ before.number = monthStart (d.monthIndex - 1) := by
  have months := d.isDate.2.1
  have index : 12 * (d.year : Int) + (((d.month - 1 : Nat) : Int) - 1) = d.monthIndex - 1 := by
    unfold Date.monthIndex
    omega
  rw [firstOfMonth_eq_ok_iff_number (by omega), index]

theorem firstOfNextMonth_eq_ok_iff {d next : Date} :
    firstOfMonth d.year (d.month + 1) = .ok next ↔
      next.number = dayNumber d.year d.month 1 + monthLength d.year d.month := by
  rw [firstOfNextMonth_eq_ok_iff_number, Date.monthStart_monthIndex_succ]

theorem firstOfLastMonth_eq_ok_iff {d before : Date} :
    firstOfMonth d.year (d.month - 1) = .ok before ↔
      before.day = 1 ∧ before.number + monthLength before.year before.month = dayNumber d.year d.month 1 := by
  have here : dayNumber d.year d.month 1 = monthStart d.monthIndex := (monthStart_eq d.year d.isDate.2.1).symm
  rw [firstOfLastMonth_eq_ok_iff_number, Date.number_eq_monthStart_iff]
  refine and_congr_right ?_
  intro first
  rw [Date.number_of_first first, ← Date.monthStart_monthIndex_succ, here, monthStart_inj]
  omega

end RelativeWindow

/-! ### Units -/

/-- The units of the calendar that windows are made of. -/
inductive CalendarUnit where
  | day
  | week
  | month

namespace CalendarUnit

/-- The window of the unit that now lies in. -/
def current : CalendarUnit → RelativeWindow
  | day => .today
  | week => .thisWeek
  | month => .thisMonth

/-- The window of the unit before that. -/
def previous : CalendarUnit → RelativeWindow
  | day => .yesterday
  | week => .lastWeek
  | month => .lastMonth

/-- A unit starts on a date: any one, a Sunday or the first of a month. -/
def Starts : CalendarUnit → Date → Prop
  | day, _ => True
  | week, d => d.weekday = 6
  | month, d => d.day = 1

/-- The number of days of the unit that starts on a date. -/
def days : CalendarUnit → Date → Nat
  | day, _ => 1
  | week, _ => 7
  | month, d => monthLength d.year d.month

/-- The unit that starts on a date holds the days of the numbers from its own on. -/
def Has (u : CalendarUnit) (first : Date) (n : Int) : Prop := first.number ≤ n ∧ n < first.number + u.days first

variable {u : CalendarUnit}

theorem days_pos (u : CalendarUnit) (first : Date) : 0 < u.days first := by
  have long := le_monthLength first.year first.isDate.2.1
  cases u <;> simp only [days] <;> omega

theorem has_number (u : CalendarUnit) (first : Date) : u.Has first first.number := by
  have positive := u.days_pos first
  unfold Has
  omega

theorem daysIntoWeek_eq (d : Date) : (RelativeWindow.daysIntoWeek d : Int) = d.number % 7 := by
  unfold RelativeWindow.daysIntoWeek Date.weekday weekday
  omega

theorem starts_week_iff {d : Date} : week.Starts d ↔ d.number % 7 = 0 := by
  unfold Starts Date.weekday weekday
  omega

/-- Two spans of a unit that share a day are one. -/
theorem eq_of_has {d e x : Date} (starts : u.Starts d) (starts' : u.Starts e) (has : u.Has d x.number)
    (has' : u.Has e x.number) : d = e := by
  cases u with
  | day =>
    simp only [Has, days] at has has'
    exact Date.number_inj (by omega)
  | week =>
    rw [starts_week_iff] at starts starts'
    simp only [Has, days] at has has'
    exact Date.number_inj (by omega)
  | month =>
    obtain ⟨year, month⟩ := (Date.inMonth_iff starts).mp has
    obtain ⟨year', month'⟩ := (Date.inMonth_iff starts').mp has'
    exact Date.eq_of_first (year.symm.trans year') (month.symm.trans month') starts starts'

/-- The window of a unit at a moment is the span of the unit that holds the moment. -/
theorem resolve_current_iff {now : Moment} {w : Window} :
    u.current.resolve (.ofMoment now) = .ok w ↔ ∃ first next, u.Starts first ∧ u.Has first now.date.number ∧
      next.number = first.number + u.days first ∧ w = RelativeWindow.between (.ofMoment now) first next := by
  have date : (Now.ofMoment now).moment.date = now.date := rfl
  cases u with
  | day =>
    simp only [current, RelativeWindow.resolve, bind_eq_ok_iff, pure_eq_ok_iff, Date.addDays_eq_ok_iff, date]
    constructor
    · rintro ⟨next, number, rfl⟩
      exact ⟨now.date, next, trivial, has_number day now.date, number, rfl⟩
    · rintro ⟨first, next, -, has, number, rfl⟩
      obtain rfl := @eq_of_has day _ _ now.date trivial trivial has (has_number day now.date)
      exact ⟨next, number, rfl⟩
  | week =>
    simp only [current, RelativeWindow.resolve, bind_eq_ok_iff, pure_eq_ok_iff, Date.addDays_eq_ok_iff, date,
      daysIntoWeek_eq]
    constructor
    · rintro ⟨sunday, start, next, number, rfl⟩
      refine ⟨sunday, next, starts_week_iff.mpr (by omega), ?_, number, rfl⟩
      simp only [Has, days]
      omega
    · rintro ⟨first, next, starts, has, number, rfl⟩
      rw [starts_week_iff] at starts
      simp only [Has, days] at has
      exact ⟨first, by omega, next, number, rfl⟩
  | month =>
    simp only [current, RelativeWindow.resolve, bind_eq_ok_iff, pure_eq_ok_iff, date,
      RelativeWindow.firstOfMonth_eq_ok_iff, RelativeWindow.firstOfNextMonth_eq_ok_iff]
    constructor
    · rintro ⟨first, ⟨year, month, starts⟩, next, number, rfl⟩
      refine ⟨first, next, starts, (Date.inMonth_iff starts).mpr ⟨year.symm, month.symm⟩, ?_, rfl⟩
      rw [number, Date.number_of_first starts, days, year, month]
    · rintro ⟨first, next, starts, has, number, rfl⟩
      obtain ⟨year, month⟩ := (Date.inMonth_iff starts).mp has
      refine ⟨first, ⟨year.symm, month.symm, starts⟩, next, ?_, rfl⟩
      rw [number, Date.number_of_first starts, days, year, month]

/-- The window before that of a unit is the span of the unit that ends where the one that
    holds the moment starts. -/
theorem resolve_previous_iff {now : Moment} {w : Window} :
    u.previous.resolve (.ofMoment now) = .ok w ↔ ∃ first next, u.Starts first ∧ u.Starts next ∧
      u.Has next now.date.number ∧ next.number = first.number + u.days first ∧
      w = RelativeWindow.between (.ofMoment now) first next := by
  have date : (Now.ofMoment now).moment.date = now.date := rfl
  cases u with
  | day =>
    simp only [previous, RelativeWindow.resolve, bind_eq_ok_iff, pure_eq_ok_iff, Date.addDays_eq_ok_iff, date]
    constructor
    · rintro ⟨first, number, rfl⟩
      refine ⟨first, now.date, trivial, trivial, has_number day now.date, ?_, rfl⟩
      simp only [days]
      omega
    · rintro ⟨first, next, -, -, has, number, rfl⟩
      obtain rfl := @eq_of_has day _ _ now.date trivial trivial has (has_number day now.date)
      simp only [days] at number
      exact ⟨first, by omega, rfl⟩
  | week =>
    simp only [previous, RelativeWindow.resolve, bind_eq_ok_iff, pure_eq_ok_iff, Date.addDays_eq_ok_iff, date,
      daysIntoWeek_eq]
    constructor
    · rintro ⟨sunday, start, first, back, next, number, rfl⟩
      refine ⟨first, next, starts_week_iff.mpr (by omega), starts_week_iff.mpr (by omega), ?_, number, rfl⟩
      simp only [Has, days]
      omega
    · rintro ⟨first, next, starts, starts', has, number, rfl⟩
      rw [starts_week_iff] at starts starts'
      simp only [Has, days] at has number
      exact ⟨next, by omega, first, by omega, next, by omega, rfl⟩
  | month =>
    simp only [previous, RelativeWindow.resolve, bind_eq_ok_iff, pure_eq_ok_iff, date,
      RelativeWindow.firstOfMonth_eq_ok_iff, RelativeWindow.firstOfLastMonth_eq_ok_iff]
    constructor
    · rintro ⟨first, ⟨starts, number⟩, next, ⟨year, month, starts'⟩, rfl⟩
      refine ⟨first, next, starts, starts', (Date.inMonth_iff starts').mpr ⟨year.symm, month.symm⟩, ?_, rfl⟩
      rw [Date.number_of_first starts', days, number, year, month]
    · rintro ⟨first, next, starts, starts', has, number, rfl⟩
      obtain ⟨year, month⟩ := (Date.inMonth_iff starts').mp has
      refine ⟨first, ⟨starts, ?_⟩, next, ⟨year.symm, month.symm, starts'⟩, rfl⟩
      rw [year, month, ← Date.number_of_first starts', number, days]

/-! ### Windows -/

/-- A window is the span of a unit on a clock of an offset: it starts at the midnight of a date on
    which the unit starts, and lasts as many days as the unit that starts there. -/
structure IsSpan (u : CalendarUnit) (offset : Option Offset) (w : Window) : Prop where
  midnight : w.start = ⟨w.start.date, .midnight, offset⟩
  starts : u.Starts w.start.date
  lasts : w.stop.instant - w.start.instant = u.days w.start.date * microsPerDay

theorem isSpan_between {now : Moment} {first next : Date} (starts : u.Starts first)
    (number : next.number = first.number + u.days first) :
    u.IsSpan now.offset (RelativeWindow.between (.ofMoment now) first next) := by
  refine ⟨rfl, starts, ?_⟩
  rw [start_between, stop_between, instant_midnight, instant_midnight, number]
  change _ = (u.days first : Int) * microsPerDay
  unfold microsPerDay
  omega

/-- Every moment in the span of a unit has that span for its window. -/
theorem resolve_current_of_holds {now x : Moment} {first next : Date} (starts : u.Starts first)
    (number : next.number = first.number + u.days first) (same : x.offset = now.offset)
    (holds : (RelativeWindow.between (.ofMoment now) first next).Holds x) :
    u.current.resolve (.ofMoment x) = .ok (RelativeWindow.between (.ofMoment now) first next) := by
  rw [holds_between_iff same, number] at holds
  have clock : RelativeWindow.between (.ofMoment now) first next = RelativeWindow.between (.ofMoment x) first next := by
    change Window.mk ⟨first, .midnight, now.offset⟩ ⟨next, .midnight, now.offset⟩ = _
    rw [← same]
    rfl
  exact resolve_current_iff.mpr ⟨first, next, starts, holds, number, clock⟩

/-- The windows of a unit tile the time of a clock. The one at a moment holds the moment, is a span
    of the unit, and is the window at each moment that it holds; so is the one before it, which stops
    where the unit that holds the moment starts. -/
theorem windows_tile (u : CalendarUnit) (now : Moment) :
    (∀ w, u.current.resolve (.ofMoment now) = .ok w → w.Holds now ∧ u.IsSpan now.offset w ∧
      ∀ x, x.offset = now.offset → w.Holds x → u.current.resolve (.ofMoment x) = .ok w) ∧
    ∀ before, u.previous.resolve (.ofMoment now) = .ok before → u.IsSpan now.offset before ∧
      (∀ x, x.offset = now.offset → before.Holds x → u.current.resolve (.ofMoment x) = .ok before) ∧
      (∃ start, before.stop = ⟨start, .midnight, now.offset⟩ ∧ u.Starts start ∧ u.Has start now.date.number) ∧
      ∀ w, u.current.resolve (.ofMoment now) = .ok w → before.stop = w.start := by
  constructor
  · intro w resolved
    obtain ⟨first, next, starts, has, number, rfl⟩ := resolve_current_iff.mp resolved
    refine ⟨?_, isSpan_between starts number, fun x same holds => resolve_current_of_holds starts number same holds⟩
    rw [holds_between_iff rfl, number]
    exact has
  · intro before resolved
    obtain ⟨first, next, starts, starts', has', number, rfl⟩ := resolve_previous_iff.mp resolved
    refine ⟨isSpan_between starts number, fun x same holds => resolve_current_of_holds starts number same holds,
      ⟨next, rfl, starts', has'⟩, ?_⟩
    intro w present
    obtain ⟨first', next', starts'', has'', -, rfl⟩ := resolve_current_iff.mp present
    rw [eq_of_has starts'' starts' has'' has']
    rfl

/-- The last microsecond of a March, on a clock that is five and a half hours ahead. -/
def endOfMarch : Moment :=
  ⟨⟨2024, 3, 31, by decide⟩, ⟨Fin.last 23, Fin.last 59, Fin.last 59, Fin.last 999999⟩, some Zone.kolkata.standard⟩

/-- The month before is a February of 29 days, and noon on the last of them lies in it. -/
theorem windows_tile_endOfMarch :
    let february : Window := ⟨{ endOfMarch with date := ⟨2024, 2, 1, by decide⟩, time := .midnight },
      { endOfMarch with date := ⟨2024, 3, 1, by decide⟩, time := .midnight }⟩
    let march : Window := ⟨february.stop, { endOfMarch with date := ⟨2024, 4, 1, by decide⟩, time := .midnight }⟩
    let noon : Moment := { endOfMarch with date := ⟨2024, 2, 29, by decide⟩, time := ⟨12, 0, 0, 0⟩ }
    RelativeWindow.thisMonth.resolve (.ofMoment endOfMarch) = .ok march ∧ march.Holds endOfMarch ∧
      RelativeWindow.lastMonth.resolve (.ofMoment endOfMarch) = .ok february ∧
      february.stop.instant - february.start.instant = 29 * microsPerDay ∧ february.Holds noon ∧
      RelativeWindow.thisMonth.resolve (.ofMoment noon) = .ok february ∧ february.stop = march.start := by
  intro february march noon
  obtain ⟨here, earlier⟩ := windows_tile month endOfMarch
  have present : month.current.resolve (.ofMoment endOfMarch) = .ok march := rfl
  have past : month.previous.resolve (.ofMoment endOfMarch) = .ok february := rfl
  have inside : february.Holds noon := by
    constructor <;> decide
  obtain ⟨span, chains, -, stops⟩ := earlier february past
  have long : february.stop.instant - february.start.instant = (monthLength 2024 2 : Nat) * microsPerDay := span.lasts
  have leap : monthLength 2024 2 = 29 := by decide
  rw [leap] at long
  exact ⟨present, (here march present).1, past, long, inside, chains noon rfl inside, stops march present⟩

end CalendarUnit

end Criteria.Calendar
