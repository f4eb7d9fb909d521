import Criteria.Matrix.Packaged
import Criteria.Proofs.Leaf
import Criteria.Proofs.Rules
import Criteria.Proofs.Spelling

/-!
What the rules foretell of a condition. How its leaf fails (`Failure`) and what the rules
find in its operand (`OperandReport`) are compared one kind of fault at a time: a pair, a
window and a date fail exactly if the rules report them, and a set fails only if they do.
So a condition that its field allows fails as the rules say (`compile_error_foretold`).
-/
namespace Criteria

open Calendar (Now RelativeWindow)

namespace Condition

variable {now : Now} {c : Condition} {op : Operator}

/-- What breaks the rules in a condition that its field allows is its operand. -/
theorem violations_of_isAllowed {m : Matrix} {entity : String} (named : c.operator = op.name)
    (allowed : m.isAllowed entity c.field op.name = true) : c.violations m entity = c.operandViolations op := by
  obtain ⟨operators, other, listed, inside, same⟩ := Matrix.isAllowed_iff.mp allowed
  obtain rfl := Operator.name_inj same
  simp [violations, listed, named, Operator.ofName?_name, inside]

/-- A value is taken for a window exactly if it is the text of its name. -/
theorem ofName?_display_eq_none_iff {x : Json} :
    RelativeWindow.ofName? x.display = none ↔ ∀ w : RelativeWindow, x ≠ .str w.name := by
  constructor
  · rintro unnamed w rfl
    rw [Json.display, RelativeWindow.ofName?_name] at unnamed
    cases unnamed
  · intro other
    cases named : RelativeWindow.ofName? x.display with
    | none => rfl
    | some w => exact absurd (Json.eq_str_of_display_eq_name (RelativeWindow.ofName?_eq_some_iff.mp named).symm) (other w)

/-! ### Pairs, windows and sets -/

theorem exists_failure_notPair_iff {o : Operator} :
    (∃ x, c.Failure now op (.notPair o x)) ↔ .notPair o ∈ c.operandViolations op := by
  constructor
  · rintro ⟨x, failure⟩
    cases failure with
    | notPair pair other =>
      rw [← (OperandReport.notPair pair other).eq]
      exact List.mem_singleton_self _
  · intro told
    have report := operandReport_operandViolations c op
    generalize c.operandViolations op = found at report told
    cases report with
    | notPair pair other =>
      cases List.mem_singleton.mp told
      exact ⟨c.value, .notPair pair other⟩
    | _ => simp at told

theorem exists_failure_unknownWindow_iff :
    (∃ name, c.Failure now op (.unknownWindow name)) ↔ ∃ x field, .unknownWindow x field ∈ c.operandViolations op := by
  constructor
  · rintro ⟨name, failure⟩
    cases failure with
    | unknownWindow unnamed =>
      rw [← (OperandReport.unknownWindow (ofName?_display_eq_none_iff.mp unnamed)).eq]
      exact ⟨c.value, c.field, List.mem_singleton_self _⟩
  · rintro ⟨x, field, told⟩
    have report := operandReport_operandViolations c op
    generalize c.operandViolations op = found at report told
    cases report with
    | unknownWindow other => exact ⟨c.value.display, .unknownWindow (ofName?_display_eq_none_iff.mpr other)⟩
    | _ => simp at told

theorem notSet_mem_of_failure {x : Json} (failure : c.Failure now op (.notSet x)) :
    op.takesSet = true ∧ .notSet op ∈ c.operandViolations op := by
  cases failure with
  | notSet set given solid =>
    have noArray : ∀ items, c.values ≠ .arr items := by
      intro items isArray
      rw [isArray] at solid
      cases solid
    rw [← (OperandReport.notSet set given noArray).eq]
    exact ⟨set, List.mem_singleton_self _⟩

/-! ### Dates -/

/-- The rules report that a date operand is missing or is no date. -/
def ReportsDate (found : List Violation) : Prop :=
  ∃ op field, .notDate op field ∈ found ∨ .notDates op field ∈ found ∨ .noValue op field ∈ found

theorem reportsDate_of_unread {fault : DateFault} (dates : op.takesDates = true) (single : op.takesPair = false)
    (unread : dateOperand c.value = .error fault) : ReportsDate (c.operandViolations op) := by
  have takesValue : op.takesValue := by
    cases op with
    | dateEquals | dateBefore | dateAfter => exact ⟨rfl, rfl, rfl, nofun⟩
    | dateBetween => cases single
    | _ => cases dates
  by_cases none : c.value = .null
  · rw [← (OperandReport.noValue takesValue none).eq]
    exact ⟨op, c.field, .inr (.inr (List.mem_singleton_self _))⟩
  · have noDate : ∀ moment, dateOperand c.value ≠ .ok moment := by
      intro moment read
      cases read.symm.trans unread
    rw [← (OperandReport.notDate takesValue dates none noDate).eq]
    exact ⟨op, c.field, .inl (List.mem_singleton_self _)⟩

theorem reportsDate_of_not_fits {low high : Json} (isPair : c.value = .arr [low, high]) (misfits : ¬ c.Fits .dateBetween) :
    ReportsDate (c.operandViolations .dateBetween) := by
  rw [← (OperandReport.notDates isPair misfits).eq]
  exact ⟨.dateBetween, c.field, .inr (.inl (List.mem_singleton_self _))⟩

theorem reportsDate_of_failure {fault : DateFault} (failure : c.Failure now op (.date fault)) :
    op.takesDates = true ∧ ReportsDate (c.operandViolations op) := by
  cases failure with
  | unread dates single unread => exact ⟨dates, reportsDate_of_unread dates single unread⟩
  | unreadLow isPair unread =>
    refine ⟨rfl, reportsDate_of_not_fits isPair ?_⟩
    rintro ⟨low, high, first, last, isPair', read, -⟩
    cases isPair.symm.trans isPair'
    cases read.symm.trans unread
  | unreadHigh isPair _ unread =>
    refine ⟨rfl, reportsDate_of_not_fits isPair ?_⟩
    rintro ⟨low, high, first, last, isPair', -, read⟩
    cases isPair.symm.trans isPair'
    cases read.symm.trans unread

theorem exists_failure_date_of_not_fits {low high : Json} (isPair : c.value = .arr [low, high])
    (misfits : ¬ c.Fits .dateBetween) : ∃ fault, c.Failure now .dateBetween (.date fault) := by
  cases readLow : dateOperand low with
  | error fault => exact ⟨fault, .unreadLow isPair readLow⟩
  | ok first =>
    cases readHigh : dateOperand high with
    | error fault => exact ⟨fault, .unreadHigh isPair readLow readHigh⟩
    | ok last => exact absurd ⟨low, high, first, last, isPair, readLow, readHigh⟩ misfits

theorem exists_failure_date_iff :
    (∃ fault, c.Failure now op (.date fault)) ↔ op.takesDates = true ∧ ReportsDate (c.operandViolations op) := by
  constructor
  · rintro ⟨fault, failure⟩
    exact reportsDate_of_failure failure
  · rintro ⟨dates, told⟩
    have report := operandReport_operandViolations c op
    generalize c.operandViolations op = found at report told
    cases report with
    | notDates isPair misfits => exact exists_failure_date_of_not_fits isPair misfits
    | noValue single none => exact ⟨.notText .null, .unread dates single.1 (by rw [none]; rfl)⟩
    | notDate single _ _ noDate =>
      cases unread : dateOperand c.value with
      | ok moment => exact absurd unread (noDate moment)
      | error fault => exact ⟨fault, .unread dates single.1 unread⟩
    | _ => simp [ReportsDate] at told

/-! ### Conditions -/

/-- A condition whose field allows its operator has no predicate exactly for the reasons that the
    rules report, for every matrix and operand and at every present moment: it has no pair, its
    window has no name, or a date of it is missing or cannot be read, exactly if the rules report
    that; its set cannot be gone through only if they report that it is no array; and its operator
    is always known. -/
theorem compile_error_foretold (m : Matrix) (entity : String) (place : List String → Predicate → Predicate)
    (now : Now) (c : Condition) (op : Operator) (named : c.operator = op.name)
    (allowed : m.isAllowed entity c.field op.name = true) :
    (∀ o, (∃ x, c.compile place now = .error (.notPair o x)) ↔ .notPair o ∈ c.violations m entity) ∧
    ((∃ name, c.compile place now = .error (.unknownWindow name)) ↔
      ∃ x field, .unknownWindow x field ∈ c.violations m entity) ∧
    ((∃ fault, c.compile place now = .error (.date fault)) ↔
      op.takesDates = true ∧ ReportsDate (c.violations m entity)) ∧
    (∀ x, c.compile place now = .error (.notSet x) → op.takesSet = true ∧ .notSet op ∈ c.violations m entity) ∧
    ∀ name, c.compile place now ≠ .error (.unknownOperator name) := by
  simp only [violations_of_isAllowed named allowed, compile_error_iff, leaf_eq_leafOf named, leafOf_eq_error_iff,
    ne_eq]
  refine ⟨fun o => exists_failure_notPair_iff, exists_failure_unknownWindow_iff, exists_failure_date_iff,
    fun x => notSet_mem_of_failure, fun name failure => ?_⟩
  cases failure

/-- A pair whose second date is the leap day of a common year is reported as no dates, and so it
    has no predicate: a date of it cannot be read. -/
theorem compile_error_foretold_leapDay :
    let now : Now := ⟨⟨⟨2024, 5, 15, by decide⟩, .midnight, none⟩, none⟩
    let c : Condition := ⟨"createdAt", "date_between", .arr [.str "2024-02-29", .str "2023-02-29"], .null⟩
    Matrix.packaged.isAllowed "deals" "createdAt" "date_between" = true ∧
      c.violations .packaged "deals" = [.notDates .dateBetween "createdAt"] ∧
      ∃ fault, c.compile .nest now = .error (.date fault) := by
  intro now c
  have allowed : Matrix.packaged.isAllowed "deals" "createdAt" "date_between" = true := by decide
  have told : c.violations .packaged "deals" = [.notDates .dateBetween "createdAt"] := by decide
  obtain ⟨-, -, dates, -⟩ := compile_error_foretold .packaged "deals" .nest now c .dateBetween rfl allowed
  refine ⟨allowed, told, dates.mpr ⟨rfl, .dateBetween, "createdAt", .inr (.inl ?_)⟩⟩
  rw [told]
  exact List.mem_singleton_self _

end Condition

end Criteria
