import Criteria.Predicate.Compilation
import Criteria.Proofs.Accepted
import Criteria.Proofs.CalendarEdge

/-!
The leaf of a condition. Its operator alone decides which tests it has
(`leafOf_keys`). `Failure` says how it can fail, and with which fault
(`leafOf_eq_error_iff`); if its operand fits it fails only at the ends of the calendar,
where a date lies outside the years 1 to 9999 (`leafOf_error`).
-/
namespace Criteria

open Calendar (Now RelativeWindow)

/-- The names of the entries of an operator's leaf. -/
def Operator.keys : Operator → List String
  | equals | isEmpty => ["equals"]
  | notEquals | notContains | isNotEmpty => ["not"]
  | contains => ["contains", "mode"]
  | startsWith => ["startsWith", "mode"]
  | endsWith => ["endsWith", "mode"]
  | greaterThan | dateAfter => ["gt"]
  | greaterThanOrEqual => ["gte"]
  | lessThan | dateBefore => ["lt"]
  | lessThanOrEqual => ["lte"]
  | between | dateBetween => ["gte", "lte"]
  | oneOf => ["in"]
  | noneOf => ["notIn"]
  | dateEquals | dateRelative => ["gte", "lt"]

namespace Condition

variable {now : Now} {c : Condition} {op : Operator} {e : CompileFault}

theorem leafOf_keys {p : Predicate} (made : c.leafOf now op = .ok p) :
    ∃ entries : List (String × Predicate), p = .object entries ∧ entries.map (·.1) = op.keys := by
  cases op <;> simp only [leafOf, bind_eq_ok_iff, pure_eq_ok_iff] at made
  case between =>
    obtain ⟨_, _, rfl⟩ := made
    exact ⟨_, rfl, rfl⟩
  case oneOf | noneOf | dateBefore | dateAfter =>
    obtain ⟨_, _, rfl⟩ := made
    exact ⟨_, rfl, rfl⟩
  case dateEquals =>
    obtain ⟨_, _, _, _, rfl⟩ := made
    exact ⟨_, rfl, rfl⟩
  case dateBetween =>
    obtain ⟨_, _, _, _, _, _, rfl⟩ := made
    exact ⟨_, rfl, rfl⟩
  case dateRelative =>
    split at made
    · cases made
    · obtain ⟨_, _, placed⟩ := bind_eq_ok_iff.mp made
      obtain rfl := pure_eq_ok_iff.mp placed
      exact ⟨_, rfl, rfl⟩
  all_goals
    subst made
    exact ⟨_, rfl, rfl⟩

theorem leaf_eq_leafOf (named : c.operator = op.name) : c.leaf now = c.leafOf now op := by
  rw [leaf, named, Operator.ofName?_name]

theorem exists_operator_of_leaf {p : Predicate} (made : c.leaf now = .ok p) :
    ∃ op : Operator, c.operator = op.name ∧ c.leafOf now op = .ok p := by
  unfold leaf at made
  split at made
  · cases made
  · rename_i op known
    exact ⟨op, (Operator.ofName?_eq_some_iff.mp known).symm, made⟩

/-! ### Failures -/

/-- How the leaf of a condition fails: its operand is no pair, a date cannot be read, its
    set cannot be gone through, its window has no name, or a date that it leads to lies
    outside the calendar. -/
inductive Failure (now : Now) (c : Condition) : Operator → CompileFault → Prop
  | notPair {op : Operator} (pair : op.takesPair = true) (other : ∀ low high, c.value ≠ .arr [low, high]) :
      Failure now c op (.notPair op c.value)
  | unread {op : Operator} {fault : DateFault} (dates : op.takesDates = true) (single : op.takesPair = false)
      (unread : dateOperand c.value = .error fault) : Failure now c op (.date fault)
  | unreadLow {low high : Json} {fault : DateFault} (isPair : c.value = .arr [low, high])
      (unread : dateOperand low = .error fault) : Failure now c .dateBetween (.date fault)
  | unreadHigh {low high : Json} {first : Calendar.Moment} {fault : DateFault} (isPair : c.value = .arr [low, high])
      (read : dateOperand low = .ok first) (unread : dateOperand high = .error fault) :
      Failure now c .dateBetween (.date fault)
  | notSet {op : Operator} (set : op.takesSet = true) (given : c.values ≠ .null) (solid : c.values.members? = none) :
      Failure now c op (.notSet c.values)
  | unknownWindow (unnamed : RelativeWindow.ofName? c.value.display = none) :
      Failure now c .dateRelative (.unknownWindow c.value.display)
  | noEnd {moment : Calendar.Moment} {fault : Calendar.Fault} (read : dateOperand c.value = .ok moment)
      (late : moment.startOfDay.addDays 1 = .error fault) : Failure now c .dateEquals (.calendar fault)
  | noWindow {w : RelativeWindow} {fault : Calendar.Fault} (named : RelativeWindow.ofName? c.value.display = some w)
      (late : w.resolve now = .error fault) : Failure now c .dateRelative (.calendar fault)

theorem momentOf_eq_ok_iff {x : Json} {moment : Calendar.Moment} :
    momentOf x = .ok moment ↔ dateOperand x = .ok moment := by
  unfold momentOf
  cases dateOperand x with
  | ok moment' => simp
  | error fault => simp

theorem momentOf_eq_error_iff {x : Json} :
    momentOf x = .error e ↔ ∃ fault, dateOperand x = .error fault ∧ e = .date fault := by
  unfold momentOf
  cases dateOperand x with
  | ok moment => simp
  | error fault => simp [eq_comm]

theorem pairOf_eq_ok_iff {x low high : Json} : pairOf op x = .ok (low, high) ↔ x = .arr [low, high] := by
  unfold pairOf
  split
  · simp
  · rename_i other
    exact iff_of_false nofun (other low high)

theorem pairOf_eq_error_iff {x : Json} :
    pairOf op x = .error e ↔ (∀ low high, x ≠ .arr [low, high]) ∧ e = .notPair op x := by
  unfold pairOf
  split
  · rename_i low high
    exact iff_of_false nofun fun none => none.1 low high rfl
  · rename_i other
    exact ⟨fun same => ⟨other, (Except.error.inj same).symm⟩, fun isFault => isFault.2 ▸ rfl⟩

theorem operandSet_eq_error_iff :
    c.operandSet = .error e ↔ (c.values ≠ .null ∧ c.values.members? = none) ∧ e = .notSet c.values := by
  unfold operandSet
  by_cases none : c.values = .null
  · rw [if_pos (Json.isNull_iff.mpr none)]
    refine iff_of_false ?_ fun given => given.1.1 none
    split <;> exact nofun
  · rw [if_neg (mt Json.isNull_iff.mp none)]
    cases c.values.members? with
    | some items => simp
    | none => simp [none, eq_comm]

theorem onCalendar_eq_ok_iff {α : Type} {result : Except Calendar.Fault α} {x : α} :
    onCalendar result = .ok x ↔ result = .ok x := by
  cases result with
  | ok y => simp [onCalendar]
  | error fault => simp [onCalendar]

theorem onCalendar_eq_error_iff {α : Type} {result : Except Calendar.Fault α} :
    onCalendar result = .error e ↔ ∃ fault, result = .error fault ∧ e = .calendar fault := by
  cases result with
  | ok x => simp [onCalendar]
  | error fault => simp [onCalendar, eq_comm]

/-- A condition fails in one of these ways and with no other fault. -/
theorem failure_of_leafOf_error (failed : c.leafOf now op = .error e) : c.Failure now op e := by
  cases op <;> simp only [leafOf, bind_eq_error_iff, pure_ne_error, and_false, exists_false, or_false] at failed
  case between =>
    obtain ⟨other, rfl⟩ := pairOf_eq_error_iff.mp failed
    exact .notPair rfl other
  case oneOf | noneOf =>
    obtain ⟨⟨given, solid⟩, rfl⟩ := operandSet_eq_error_iff.mp failed
    exact .notSet rfl given solid
  case dateBefore | dateAfter =>
    obtain ⟨fault, unread, rfl⟩ := momentOf_eq_error_iff.mp failed
    exact .unread rfl rfl unread
  case dateEquals =>
    rcases failed with noDate | ⟨moment, read, noEnd⟩
    · obtain ⟨fault, unread, rfl⟩ := momentOf_eq_error_iff.mp noDate
      exact .unread rfl rfl unread
    · obtain ⟨fault, late, rfl⟩ := onCalendar_eq_error_iff.mp noEnd
      exact .noEnd (momentOf_eq_ok_iff.mp read) late
  case dateBetween =>
    rcases failed with single | ⟨⟨low, high⟩, isPair, noDate | ⟨first, read, noDate⟩⟩
    · obtain ⟨other, rfl⟩ := pairOf_eq_error_iff.mp single
      exact .notPair rfl other
    · obtain ⟨fault, unread, rfl⟩ := momentOf_eq_error_iff.mp noDate
      exact .unreadLow (pairOf_eq_ok_iff.mp isPair) unread
    · obtain ⟨fault, unread, rfl⟩ := momentOf_eq_error_iff.mp noDate
      exact .unreadHigh (pairOf_eq_ok_iff.mp isPair) (momentOf_eq_ok_iff.mp read) unread
  case dateRelative =>
    split at failed
    · rename_i unnamed
      cases failed
      exact .unknownWindow unnamed
    · rename_i w named
      rcases bind_eq_error_iff.mp failed with noWindow | ⟨window, -, impossible⟩
      · obtain ⟨fault, late, rfl⟩ := onCalendar_eq_error_iff.mp noWindow
        exact .noWindow named late
      · exact absurd impossible pure_ne_error

/-- In each of these ways a condition does fail. -/
theorem Failure.leafOf_eq_error (failure : c.Failure now op e) : c.leafOf now op = .error e := by
  cases failure with
  | notPair pair other =>
    have noPair : pairOf op c.value = .error (.notPair op c.value) := pairOf_eq_error_iff.mpr ⟨other, rfl⟩
    cases op with
    | between | dateBetween => exact bind_eq_error_iff.mpr (.inl noPair)
    | _ => cases pair
  | @unread _ fault dates single unread =>
    have noDate : momentOf c.value = .error (.date fault) := momentOf_eq_error_iff.mpr ⟨fault, unread, rfl⟩
    cases op with
    | dateEquals | dateBefore | dateAfter => exact bind_eq_error_iff.mpr (.inl noDate)
    | dateBetween => cases single
    | _ => cases dates
  | @unreadLow low high fault isPair unread =>
    have noDate : momentOf low = .error (.date fault) := momentOf_eq_error_iff.mpr ⟨fault, unread, rfl⟩
    exact bind_eq_error_iff.mpr (.inr ⟨_, pairOf_eq_ok_iff.mpr isPair, bind_eq_error_iff.mpr (.inl noDate)⟩)
  | @unreadHigh low high first fault isPair read unread =>
    have noDate : momentOf high = .error (.date fault) := momentOf_eq_error_iff.mpr ⟨fault, unread, rfl⟩
    refine bind_eq_error_iff.mpr (.inr ⟨_, pairOf_eq_ok_iff.mpr isPair, bind_eq_error_iff.mpr (.inr ?_)⟩)
    exact ⟨first, momentOf_eq_ok_iff.mpr read, bind_eq_error_iff.mpr (.inl noDate)⟩
  | notSet set given solid =>
    have noSet : c.operandSet = .error (.notSet c.values) := operandSet_eq_error_iff.mpr ⟨⟨given, solid⟩, rfl⟩
    cases op with
    | oneOf | noneOf => exact bind_eq_error_iff.mpr (.inl noSet)
    | _ => cases set
  | unknownWindow unnamed =>
    rw [leafOf, unnamed]
    rfl
  | @noEnd moment fault read late =>
    have noEnd := onCalendar_eq_error_iff.mpr ⟨fault, late, rfl⟩
    refine bind_eq_error_iff.mpr (.inr ⟨moment, momentOf_eq_ok_iff.mpr read, ?_⟩)
    exact bind_eq_error_iff.mpr (.inl noEnd)
  | @noWindow w fault named late =>
    rw [leafOf, named]
    exact bind_eq_error_iff.mpr (.inl (onCalendar_eq_error_iff.mpr ⟨fault, late, rfl⟩))

theorem leafOf_eq_error_iff : c.leafOf now op = .error e ↔ c.Failure now op e :=
  ⟨failure_of_leafOf_error, Failure.leafOf_eq_error⟩

/-- A date that a condition leads to lies outside the years 1 to 9999: the day after the
    one that it names, or a bound of its window. -/
def LeavesCalendar (now : Now) (c : Condition) (fault : Calendar.Fault) : Prop :=
  (c.operator = Operator.dateEquals.name ∧ fault = .beyond ∧
    ∃ moment, dateOperand c.value = .ok moment ∧ moment.startOfDay.addDays 1 = .error fault) ∨
  (c.operator = Operator.dateRelative.name ∧
    ∃ w : RelativeWindow, c.value = .str w.name ∧ fault = w.edgeFault ∧ w.resolve now = .error fault)

/-- The leaf for an operand that fits fails only where a date leaves the calendar. -/
theorem leafOf_error (named : c.operator = op.name) (fits : c.Fits op) (failed : c.leafOf now op = .error e) :
    ∃ fault, e = .calendar fault ∧ c.LeavesCalendar now fault := by
  cases failure_of_leafOf_error failed with
  | notPair pair other =>
    cases op with
    | between =>
      obtain ⟨low, high, isPair⟩ := fits
      exact absurd isPair (other low high)
    | dateBetween =>
      obtain ⟨low, high, -, -, isPair, -⟩ := fits
      exact absurd isPair (other low high)
    | _ => cases pair
  | unread dates single unread =>
    cases op with
    | dateEquals | dateBefore | dateAfter =>
      obtain ⟨moment, read⟩ := fits
      cases read.symm.trans unread
    | dateBetween => cases single
    | _ => cases dates
  | unreadLow isPair unread =>
    obtain ⟨low, high, first, last, isPair', read, -⟩ := fits
    cases isPair.symm.trans isPair'
    cases read.symm.trans unread
  | unreadHigh isPair _ unread =>
    obtain ⟨low, high, first, last, isPair', -, read⟩ := fits
    cases isPair.symm.trans isPair'
    cases read.symm.trans unread
  | notSet set given solid =>
    have fits : (∃ items, c.values = .arr items) ∨ c.values = .null ∧ ∃ items, c.value = .arr items := by
      cases op with
      | oneOf | noneOf => exact fits
      | _ => cases set
    rcases fits with ⟨items, isArray⟩ | ⟨none, -⟩
    · rw [isArray] at solid
      cases solid
    · exact absurd none given
  | unknownWindow unnamed =>
    obtain ⟨w, isName⟩ := fits
    rw [isName, Json.display, RelativeWindow.ofName?_name] at unnamed
    cases unnamed
  | @noEnd moment fault read late =>
    exact ⟨fault, rfl, .inl ⟨named, Calendar.Moment.addDays_error late, moment, read, late⟩⟩
  | @noWindow w fault isWindow late =>
    obtain ⟨w', isName⟩ := fits
    rw [isName, Json.display, RelativeWindow.ofName?_name, Option.some.injEq] at isWindow
    obtain rfl := isWindow
    exact ⟨fault, rfl, .inr ⟨named, w', isName, RelativeWindow.resolve_error late, late⟩⟩

/-! ### Compilation -/

theorem compile_error_iff {place : List String → Predicate → Predicate} :
    c.compile place now = .error e ↔ c.leaf now = .error e := by
  simp only [compile, bind_eq_error_iff, pure_ne_error, and_false, exists_false, or_false]

theorem compile_eq_ok_iff {place : List String → Predicate → Predicate} {p : Predicate} :
    c.compile place now = .ok p ↔ ∃ leaf, c.leaf now = .ok leaf ∧ place c.path leaf = p := by
  simp only [compile, bind_eq_ok_iff, pure_eq_ok_iff]

end Condition

end Criteria
