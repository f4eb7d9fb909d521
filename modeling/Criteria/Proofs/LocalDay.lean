import Criteria.Proofs.WindowReach

/-!
Local days across changes of the clock. An instant lies on the day that the clock of a
zone shows at it (`Zone.dayAt`), and this day is never earlier than a date exactly if the
instant is not before the midnight of the date on that clock (`Zone.midnight_le_iff`),
though the clock runs backwards once a year: it is never changed at the turn of a day. So
a window of days, weeks or months holds the instants of its local days and no others,
however many hours it lasts (`RelativeWindow.window_holds_local_days`).
-/
namespace Criteria.Calendar

theorem Date.yearOf_number (d : Date) : yearOf d.number = d.year := congrArg Prod.fst (civil_dayNumber d.isDate)

/-! ### Summer time -/

/-- Summer time starts and stops within a year, and the clock is never changed at a midnight or across
    one. -/
structure SummerTime.InsideDays (s : SummerTime) : Prop where
  startDay (year : Int) : daysBeforeYear year < s.startDay year
  stopDay (year : Int) : s.stopDay year ≤ daysBeforeYear (year + 1)
  startHour : s.startHour < 24
  stopHour : 1 ≤ s.stopHour ∧ s.stopHour < 24

theorem sundayFrom_bounds (n : Int) : n ≤ sundayFrom n ∧ sundayFrom n ≤ n + 6 := by
  unfold sundayFrom weekday
  omega

theorem daysBeforeMonth_bounds (year : Int) :
    2 ≤ daysBeforeMonth year 3 ∧ daysBeforeMonth year 10 ≤ 274 ∧ daysBeforeMonth year 11 ≤ 305 := by
  unfold daysBeforeMonth
  cases isLeap year <;> decide

namespace Zone

variable {z : Zone} {s : SummerTime}

theorem insideDays (has : z.summerTime? = some s) : s.InsideDays := by
  have long (year : Int) : daysBeforeYear year + 365 ≤ daysBeforeYear (year + 1) := by
    unfold daysBeforeYear
    omega
  cases z with
  | utc | kolkata => cases has
  | newYork =>
    cases has
    refine ⟨fun year => ?_, fun year => ?_, by decide, by decide⟩
    · have march := (sundayFrom_bounds (dayNumber year 3 8)).1
      simp only [dayNumber] at march ⊢
      omega
    · have november := (sundayFrom_bounds (dayNumber year 11 1)).2
      have months := daysBeforeMonth_bounds year
      have next := long year
      simp only [dayNumber] at november ⊢
      omega
  | london =>
    cases has
    refine ⟨fun year => ?_, fun year => ?_, by decide, by decide⟩
    · have march := (sundayFrom_bounds (dayNumber year 3 25)).1
      simp only [dayNumber] at march ⊢
      omega
    · have october := (sundayFrom_bounds (dayNumber year 10 25)).2
      have months := daysBeforeMonth_bounds year
      have next := long year
      simp only [dayNumber] at october ⊢
      omega

theorem summer_micros (has : z.summerTime? = some s) : z.summer.micros = z.standard.micros + 3600000000 := by
  cases z with
  | utc | kolkata => cases has
  | newYork | london => rfl

theorem isSummerOn_midnight_iff (has : z.summerTime? = some s) {d : Date} :
    z.isSummerOn d .midnight = true ↔ s.startDay d.year < d.number ∧ d.number ≤ s.stopDay d.year := by
  have hours := insideDays has
  have startHour := hours.startHour
  have stopHour := hours.stopHour
  have midnight : TimeOfDay.midnight.micros = 0 := rfl
  simp only [isSummerOn, has, midnight, hourOf, microsPerDay, Bool.and_eq_true, decide_eq_true_eq]
  omega

/-! ### The clock at an instant -/

/-- The offset of the clock of a zone at an instant. -/
def offsetOf (z : Zone) (instant : Int) : Offset :=
  if z.isSummerAt (yearOf ((instant + z.standard.micros) / microsPerDay)) instant then z.summer else z.standard

/-- The day that the clock of a zone shows at an instant. -/
def dayAt (z : Zone) (instant : Int) : Int := (instant + (z.offsetOf instant).micros) / microsPerDay

theorem isSummerAt_iff (has : z.summerTime? = some s) {year instant : Int} :
    z.isSummerAt year instant = true ↔
      hourOf (s.startDay year) s.startHour ≤ instant + z.standard.micros ∧
        instant + z.summer.micros < hourOf (s.stopDay year) s.stopHour := by
  simp only [isSummerAt, has, Bool.and_eq_true, decide_eq_true_eq]
  omega

/-- In the last hour before the midnight of a date the clock is on summer time exactly if it is so at
    that midnight. -/
theorem isSummerAt_iff_isSummerOn (has : z.summerTime? = some s) {d : Date} {instant : Int}
    (before : instant + z.standard.micros < d.number * microsPerDay)
    (near : d.number * microsPerDay ≤ instant + z.standard.micros + 3600000000) :
    z.isSummerAt (yearOf ((instant + z.standard.micros) / microsPerDay)) instant = true ↔
      z.isSummerOn d .midnight = true := by
  have hours := insideDays has
  have startHour := hours.startHour
  have stopHour := hours.stopHour
  have later := summer_micros has
  have dayBefore : (instant + z.standard.micros) / microsPerDay = d.number - 1 := by
    unfold microsPerDay at *
    omega
  rw [dayBefore, isSummerAt_iff has, isSummerOn_midnight_iff has, ← d.yearOf_number]
  constructor
  · rintro ⟨started, running⟩
    have first := hours.startDay (yearOf (d.number - 1))
    have last := hours.stopDay (yearOf (d.number - 1))
    have inside : s.startDay (yearOf (d.number - 1)) < d.number ∧ d.number ≤ s.stopDay (yearOf (d.number - 1)) := by
      simp only [hourOf, microsPerDay] at *
      omega
    have sameYear : yearOf d.number = yearOf (d.number - 1) := yearOf_eq (by omega) (by omega)
    rw [sameYear]
    exact inside
  · rintro ⟨started, running⟩
    have first := hours.startDay (yearOf d.number)
    have last := hours.stopDay (yearOf d.number)
    have sameYear : yearOf (d.number - 1) = yearOf d.number := yearOf_eq (by omega) (by omega)
    rw [sameYear]
    simp only [hourOf, microsPerDay] at *
    omega

theorem offsetOf_bounds (has : z.summerTime? = some s) (instant : Int) :
    z.standard.micros ≤ (z.offsetOf instant).micros ∧
      (z.offsetOf instant).micros ≤ z.standard.micros + 3600000000 := by
  have later := summer_micros has
  unfold offsetOf
  split <;> omega

theorem offsetAt_bounds (has : z.summerTime? = some s) (d : Date) (t : TimeOfDay) :
    z.standard.micros ≤ (z.offsetAt d t).micros ∧ (z.offsetAt d t).micros ≤ z.standard.micros + 3600000000 := by
  have later := summer_micros has
  unfold offsetAt
  split <;> omega

theorem le_dayAt_iff {n instant : Int} :
    n ≤ z.dayAt instant ↔ n * microsPerDay ≤ instant + (z.offsetOf instant).micros := by
  unfold dayAt microsPerDay
  omega

/-- The midnight of a date has come on the clock of a zone exactly if its clock shows the date or a
    later one, whatever offset it has by then. -/
theorem midnight_le_iff (z : Zone) (d : Date) (instant : Int) :
    (Moment.mk d .midnight (some (z.offsetAt d .midnight))).instant ≤ instant ↔ d.number ≤ z.dayAt instant := by
  have shown : (Moment.mk d .midnight (some (z.offsetAt d .midnight))).instant =
      d.number * microsPerDay - (z.offsetAt d .midnight).micros := instant_midnight d _
  rw [le_dayAt_iff, shown]
  cases has : z.summerTime? with
  | none =>
    have same : z.offsetAt d .midnight = z.offsetOf instant := by
      simp [offsetAt, offsetOf, isSummerOn, isSummerAt, has]
    rw [same]
    omega
  | some s =>
    have atMidnight := offsetAt_bounds has d .midnight
    have atInstant := offsetOf_bounds has instant
    by_cases before : instant + z.standard.micros < d.number * microsPerDay
    · by_cases near : d.number * microsPerDay ≤ instant + z.standard.micros + 3600000000
      · have agree := isSummerAt_iff_isSummerOn has before near
        have same : z.offsetAt d .midnight = z.offsetOf instant := by
          simp only [offsetAt, offsetOf, agree]
        rw [same]
        omega
      · omega
    · omega

end Zone

theorem TimeOfDay.micros_ofMicros {n : Nat} (inDay : (n : Int) < microsPerDay) : (ofMicros n).micros = n := by
  have hour : (ofMicros n).hour.val = n / 3600000000 % 24 := rfl
  have minute : (ofMicros n).minute.val = n / 60000000 % 60 := rfl
  have second : (ofMicros n).second.val = n / 1000000 % 60 := rfl
  have micro : (ofMicros n).micro.val = n % 1000000 := rfl
  unfold microsPerDay at inDay
  rw [micros, hour, minute, second, micro]
  omega

theorem Moment.exists_ofWallMicros {n : Int} (inside : 1 ≤ n / microsPerDay ∧ n / microsPerDay ≤ lastDay)
    (offset : Option Offset) : ∃ m, ofWallMicros n offset = .ok m ∧ m.offset = offset ∧ m.wallMicros = n ∧
      m.date.number = n / microsPerDay := by
  obtain ⟨date, number⟩ := Date.exists_number_eq inside
  have found : Date.ofNumber? (n / microsPerDay) = some date := Date.ofNumber?_eq_some_iff.mpr number
  have inDay : ((n % microsPerDay).toNat : Int) = n % microsPerDay ∧ n % microsPerDay < microsPerDay := by
    unfold microsPerDay
    omega
  have time := TimeOfDay.micros_ofMicros (n := (n % microsPerDay).toNat) (by omega)
  refine ⟨⟨date, TimeOfDay.ofMicros (n % microsPerDay).toNat, offset⟩, ?_, rfl, ?_, number⟩
  · unfold ofWallMicros
    rw [found]
  · rw [wallMicros, number, time, inDay.1]
    unfold microsPerDay
    omega

/-- An instant that is neither on the first nor on the last day in universal time is shown by the clock
    of every zone. -/
theorem Zone.exists_clockAt (z : Zone) {x : Moment} (afterFirst : 1 < x.instant / microsPerDay)
    (beforeLast : x.instant / microsPerDay < lastDay) :
    ∃ shown, z.clockAt x = .ok shown ∧ shown.instant = x.instant ∧ shown.date.number = z.dayAt x.instant := by
  have west := (z.offsetOf x.instant).lower
  have east := (z.offsetOf x.instant).upper
  have inside : 1 ≤ z.dayAt x.instant ∧ z.dayAt x.instant ≤ lastDay := by
    unfold dayAt microsPerDay at *
    omega
  obtain ⟨shown, made, offset, wall, number⟩ := Moment.exists_ofWallMicros inside (some (z.offsetOf x.instant))
  refine ⟨shown, made, ?_, number⟩
  rw [Moment.instant, wall, offset]
  exact Int.add_sub_cancel ..

/-! ### Windows -/

namespace RelativeWindow

variable {u : CalendarUnit} {w : RelativeWindow}

/-- The window of a unit is the one between its dates, on the clock of now. -/
theorem resolve_of_unit (unit : w = u.current ∨ w = u.previous) (now : Now) :
    w.resolve now = (fun window => between now window.start.date window.stop.date) <$>
      w.resolve (.ofMoment now.moment) := by
  cases u <;> rcases unit with rfl | rfl <;>
    simp only [CalendarUnit.current, CalendarUnit.previous, resolve, map_bind, map_pure] <;> rfl

theorem resolve_of_unit_eq_ok_iff (unit : w = u.current ∨ w = u.previous) {now : Now} {window : Window} :
    w.resolve now = .ok window ↔ ∃ first stop : Date, first.number = w.firstDay now.moment.date ∧
      stop.number = w.stopDay now.moment.date ∧ window = between now first stop := by
  rw [resolve_of_unit unit]
  constructor
  · intro resolved
    cases made : w.resolve (.ofMoment now.moment) with
    | error fault =>
      rw [made] at resolved
      cases resolved
    | ok other =>
      rw [made] at resolved
      cases resolved
      obtain ⟨first, stop, start, number, rfl⟩ := resolve_eq_ok_iff.mp made
      exact ⟨first, stop, start, number, rfl⟩
  · rintro ⟨first, stop, start, number, rfl⟩
    rw [resolve_eq_ok_iff.mpr ⟨first, stop, start, number, rfl⟩]
    rfl

theorem holds_between_iff_dayAt {now : Now} {z : Zone} (clock : now.zone = some z) {first stop : Date} {x : Moment} :
    (between now first stop).Holds x ↔ first.number ≤ z.dayAt x.instant ∧ z.dayAt x.instant < stop.number := by
  have midnight (d : Date) : now.midnight d = ⟨d, .midnight, some (z.offsetAt d .midnight)⟩ := by
    rw [Now.midnight, Now.momentAt, clock]
  have start := z.midnight_le_iff first x.instant
  have stopped := z.midnight_le_iff stop x.instant
  simp only [Window.Holds, between, midnight]
  omega

/-- The windows of days, weeks and months on the clock of a zone, at any present moment that it shows
    and whatever changes of the clock lie in them. Where the days of such a window have dates, the
    window runs from the first of them up to the one after its last, and it holds an instant exactly if
    the clock of the zone shows one of its days at that instant. -/
theorem window_holds_local_days {now : Now} {z : Zone} (clock : now.zone = some z)
    (unit : w = u.current ∨ w = u.previous)
    (dated : ∀ n ∈ w.daysUsed now.moment.date, 1 ≤ yearOf n ∧ yearOf n ≤ 9999) :
    ∃ window, w.resolve now = .ok window ∧ window.start.date.number = w.firstDay now.moment.date ∧
      window.stop.date.number = w.stopDay now.moment.date ∧
      ∀ x : Moment, 1 < x.instant / microsPerDay → x.instant / microsPerDay < lastDay →
        ∃ shown, z.clockAt x = .ok shown ∧ shown.instant = x.instant ∧
          (window.Holds x ↔
            window.start.date.number ≤ shown.date.number ∧ shown.date.number < window.stop.date.number) := by
  obtain ⟨_, first, stop, start, number, -⟩ := exists_isWindow_iff.mpr dated
  refine ⟨between now first stop, (resolve_of_unit_eq_ok_iff unit).mpr ⟨first, stop, start, number, rfl⟩,
    start, number, ?_⟩
  intro x afterFirst beforeLast
  obtain ⟨shown, made, same, day⟩ := z.exists_clockAt afterFirst beforeLast
  refine ⟨shown, made, same, ?_⟩
  rw [holds_between_iff_dayAt clock, day]
  rfl

/-- At half past one in New York, in the second of the two hours that the clock shows after midnight on
    the first Sunday of November, today lasts 25 hours: it holds the last microsecond of its date and
    not the midnight after that. -/
theorem window_holds_local_days_repeatedHour :
    let sunday : Date := ⟨2024, 11, 3, by decide⟩
    let monday : Date := ⟨2024, 11, 4, by decide⟩
    let instant : Moment := ⟨sunday, ⟨6, 30, 0, 0⟩, some .utc⟩
    let now : Now := ⟨⟨sunday, ⟨1, 30, 0, 0⟩, some Zone.newYork.standard⟩, some .newYork⟩
    let window : Window := ⟨⟨sunday, .midnight, some Zone.newYork.summer⟩,
      ⟨monday, .midnight, some Zone.newYork.standard⟩⟩
    let late : Moment := ⟨monday, ⟨4, Fin.last 59, Fin.last 59, Fin.last 999999⟩, some .utc⟩
    let midnight : Moment := ⟨monday, ⟨5, 0, 0, 0⟩, some .utc⟩
    Now.inZone .newYork instant = .ok now ∧ RelativeWindow.today.resolve now = .ok window ∧
      window.stop.instant - window.start.instant = 25 * 3600000000 ∧ window.Holds late ∧ ¬ window.Holds midnight := by
  intro sunday monday instant now window late midnight
  have resolved : RelativeWindow.today.resolve now = .ok window := by decide +kernel
  have clock : now.zone = some .newYork := rfl
  have unit : RelativeWindow.today = CalendarUnit.day.current ∨ RelativeWindow.today = CalendarUnit.day.previous :=
    .inl rfl
  have dated : ∀ n ∈ RelativeWindow.today.daysUsed now.moment.date, 1 ≤ yearOf n ∧ yearOf n ≤ 9999 := by decide
  obtain ⟨other, made, -, -, holds⟩ := window_holds_local_days clock unit dated
  obtain rfl : window = other := Except.ok.inj (resolved.symm.trans made)
  obtain ⟨shown, isShown, -, inside⟩ := holds late (by decide) (by decide)
  obtain ⟨shown', isShown', -, outside⟩ := holds midnight (by decide) (by decide)
  have lateShown : Zone.newYork.clockAt late =
      .ok ⟨sunday, ⟨23, Fin.last 59, Fin.last 59, Fin.last 999999⟩, some Zone.newYork.standard⟩ := by decide
  have midnightShown : Zone.newYork.clockAt midnight = .ok ⟨monday, .midnight, some Zone.newYork.standard⟩ := by decide
  cases lateShown.symm.trans isShown
  cases midnightShown.symm.trans isShown'
  refine ⟨by decide, resolved, by decide, inside.mpr (by decide), ?_⟩
  rw [outside]
  decide

end RelativeWindow

end Criteria.Calendar
