import Criteria.Proofs.Tree
import Criteria.Violation.Detection

/-!
What the rules accept. `Condition.Fits` says which operands an operator takes; a
condition breaks no rule if its field is listed, its operator is known and allowed
there, and its operand fits (`violations_eq_nil_iff`). A tree breaks no rule if it is
a group within the limit, its connective is known, and its members and subgroups
break none (`violationsAt_node_eq_nil_iff`); then none of its conditions does.
-/
namespace Criteria

open Calendar (RelativeWindow)

theorem isDateOperand_iff {x : Json} : isDateOperand x = true ↔ ∃ moment, dateOperand x = .ok moment := by
  unfold isDateOperand
  split
  · rename_i moment read
    exact ⟨fun _ => ⟨moment, read⟩, fun _ => rfl⟩
  · rename_i fault read
    simp [read]

theorem isWindowName_iff {x : Json} : isWindowName x = true ↔ ∃ w : RelativeWindow, x = .str w.name := by
  cases x with
  | str s =>
    simp only [isWindowName, Option.isSome_iff_exists, RelativeWindow.ofName?_eq_some_iff]
    exact exists_congr fun w => by rw [Json.str.injEq, eq_comm]
  | _ => simp [isWindowName]

theorem Json.isArray_iff {x : Json} : x.isArray = true ↔ ∃ items, x = .arr items := by
  cases x <;> simp [isArray]

theorem Json.isNull_iff {x : Json} : x.isNull = true ↔ x = .null := by
  cases x <;> simp [isNull]

namespace Matrix

variable {m : Matrix} {entity : Scalar} {field : String}

theorem isAllowed_iff {operator : String} :
    m.isAllowed entity field operator = true ↔
      ∃ allowed op, m.operators? entity field = some allowed ∧ op ∈ allowed ∧ op.name = operator := by
  unfold isAllowed operatorsOf
  cases m.operators? entity field with
  | none => simp
  | some allowed => simp

theorem isSortable_iff {entity : String} :
    m.isSortable entity field = true ↔
      field ∈ (m.fieldsOf entity).map (·.1) ∨ field ∈ m.searchFields entity := by
  rw [isSortable, Bool.or_eq_true, List.contains_iff_mem, operators?, List.lookup_isSome_iff]
  refine or_congr_left ?_
  rw [List.mem_map]
  exact exists_congr fun row => and_congr_right fun _ => beq_iff_eq.trans eq_comm

end Matrix

namespace Condition

/-- The operand of a condition is one that the operator takes: two items, for dates two
    dates, between bounds; an array among alternatives, which `values` gives unless it
    is null; the name of a window, a date, nothing or anything but null otherwise. -/
def Fits (c : Condition) : Operator → Prop
  | .between => ∃ low high, c.value = .arr [low, high]
  | .dateBetween => ∃ low high first last,
      c.value = .arr [low, high] ∧ dateOperand low = .ok first ∧ dateOperand high = .ok last
  | .oneOf | .noneOf => (∃ items, c.values = .arr items) ∨ c.values = .null ∧ ∃ items, c.value = .arr items
  | .isEmpty | .isNotEmpty => True
  | .dateRelative => ∃ w : RelativeWindow, c.value = .str w.name
  | .dateEquals | .dateBefore | .dateAfter => ∃ moment, dateOperand c.value = .ok moment
  | _ => c.value ≠ .null

theorem operandViolations_pair_eq_nil_iff (c : Condition) (op : Operator) (pair : op.takesPair = true) :
    c.operandViolations op = [] ↔ ∃ low high, c.value = .arr [low, high] ∧
      (op.takesDates = true → isDateOperand low = true ∧ isDateOperand high = true) := by
  rw [operandViolations, if_pos pair]
  split
  · rename_i low high isPair
    constructor
    · intro none
      exact ⟨low, high, isPair, by simpa using none⟩
    · rintro ⟨low', high', isPair', dates⟩
      cases isPair.symm.trans isPair'
      simpa using dates
  · rename_i other
    refine ⟨nofun, ?_⟩
    rintro ⟨low, high, isPair, -⟩
    exact absurd isPair (other low high)

theorem operandViolations_set_eq_nil_iff (c : Condition) (op : Operator) (single : op.takesPair = false)
    (set : op.takesSet = true) :
    c.operandViolations op = [] ↔ c.values.isArray = true ∨ c.values.isNull = true ∧ c.value.isArray = true := by
  rw [operandViolations, if_neg (by simp [single]), if_pos set]
  by_cases null : c.values.isNull = true
  · have noArray : ¬ c.values.isArray = true := by
      rw [Json.isNull_iff.mp null]
      exact Bool.false_ne_true
    simp [null, noArray]
  · simp [null]

theorem operandViolations_eq_nil_iff (c : Condition) (op : Operator) : c.operandViolations op = [] ↔ c.Fits op := by
  cases op with
  | between => simp [operandViolations_pair_eq_nil_iff c .between rfl, Fits, Operator.takesDates]
  | dateBetween =>
    simp only [operandViolations_pair_eq_nil_iff c .dateBetween rfl, Fits, Operator.takesDates,
      isDateOperand_iff, true_implies]
    constructor
    · rintro ⟨low, high, isPair, ⟨first, readLow⟩, last, readHigh⟩
      exact ⟨low, high, first, last, isPair, readLow, readHigh⟩
    · rintro ⟨low, high, first, last, isPair, readLow, readHigh⟩
      exact ⟨low, high, isPair, ⟨first, readLow⟩, last, readHigh⟩
  | oneOf | noneOf =>
    rw [operandViolations_set_eq_nil_iff c _ rfl rfl, Json.isArray_iff, Json.isNull_iff, Json.isArray_iff]
    rfl
  | isEmpty | isNotEmpty => exact ⟨fun _ => trivial, fun _ => rfl⟩
  | dateRelative =>
    simp [operandViolations, Operator.takesPair, Operator.takesSet, Operator.takesNothing, Fits, isWindowName_iff]
  | dateEquals | dateBefore | dateAfter =>
    simp only [operandViolations, Operator.takesPair, Operator.takesSet, Operator.takesNothing,
      Operator.takesDates, Fits, ← isDateOperand_iff]
    cases c.value <;> simp [Json.isNull, isDateOperand, dateOperand]
  | _ =>
    simp [operandViolations, Operator.takesPair, Operator.takesSet, Operator.takesNothing,
      Operator.takesDates, Fits, Json.isNull_iff]

/-- A condition breaks no rule if its operator is one that its field allows, and its
    operand fits. -/
theorem violations_eq_nil_iff {m : Matrix} {entity : String} {c : Condition} :
    c.violations m entity = [] ↔ ∃ allowed op, m.operators? entity c.field = some allowed ∧
      c.operator = op.name ∧ op ∈ allowed ∧ c.Fits op := by
  unfold violations
  cases listed : m.operators? entity c.field with
  | none => simp
  | some allowed =>
    cases known : Operator.ofName? c.operator with
    | none =>
      simp only [List.cons_ne_nil, false_iff, not_exists, not_and]
      rintro allowed' op - named
      rw [named, Operator.ofName?_name] at known
      cases known
    | some op =>
      have named := Operator.ofName?_eq_some_iff.mp known
      simp only [List.append_eq_nil_iff, operandViolations_eq_nil_iff, ite_eq_left_iff, List.cons_ne_nil, imp_false,
        Decidable.not_not, List.contains_iff_mem]
      constructor
      · rintro ⟨inside, fits⟩
        exact ⟨allowed, op, rfl, named.symm, inside, fits⟩
      · rintro ⟨allowed', op', same, named', inside, fits⟩
        cases same
        cases Operator.name_inj (named.trans named')
        exact ⟨inside, fits⟩

end Condition

namespace Group

variable {m : Matrix} {entity : String} {limit level : Int}

theorem violationsOfAll_eq_flatMap (groups : List Group) :
    violationsOfAll m entity limit level groups = groups.flatMap (violationsAt m entity limit level) := by
  induction groups with
  | nil => rfl
  | cons g rest ih => rw [violationsOfAll, ih, List.flatMap_cons]

theorem violationsAt_node_eq_nil_iff {operator : String} {members : List Member} {groups : List Group} :
    violationsAt m entity limit level (.node operator members groups) = [] ↔
      level ≤ limit ∧ (∃ k : Connective, operator = k.name) ∧ (∀ x ∈ members, x.violations m entity = []) ∧
        ∀ g ∈ groups, violationsAt m entity limit (level + 1) g = [] := by
  rw [violationsAt, violationsOfAll_eq_flatMap]
  by_cases deep : limit < level
  · rw [if_pos deep]
    refine ⟨nofun, ?_⟩
    rintro ⟨within, -⟩
    omega
  · have within : level ≤ limit := by omega
    rw [if_neg deep]
    cases known : Connective.ofName? operator with
    | none =>
      simp only [Option.isSome_none, Bool.false_eq_true, if_false, List.cons_append, reduceCtorEq, false_iff]
      rintro ⟨-, ⟨k, rfl⟩, -⟩
      rw [Connective.ofName?_name] at known
      cases known
    | some k =>
      obtain rfl := Connective.ofName?_eq_some_iff.mp known
      have named : ∃ other : Connective, k.name = other.name := ⟨k, rfl⟩
      simp [within, named]

theorem violations_eq_nil_of_mem_conditions {g : Group} {c : Condition}
    (accepted : violationsAt m entity limit level g = []) (inside : c ∈ g.conditions) :
    c.violations m entity = [] := by
  induction g using Group.induction generalizing level with
  | node operator members groups ih =>
    obtain ⟨-, -, own, nested⟩ := violationsAt_node_eq_nil_iff.mp accepted
    rcases mem_conditions_node_iff.mp inside with member | ⟨g, subgroup, deeper⟩
    · exact own _ member
    · exact ih g subgroup (nested g subgroup) deeper
  | foreign value => exact absurd inside List.not_mem_nil

theorem violations_eq_nil_iff {g : Group} :
    g.violations m entity limit = [] ↔ m.hasEntity entity = true ∧ violationsAt m entity limit 1 g = [] := by
  unfold violations
  by_cases known : m.hasEntity entity = true
  · simp [known]
  · simp [known]

end Group

theorem SortKey.violations_eq_nil_iff {m : Matrix} {entity : String} {s : SortKey} :
    s.violations m entity = [] ↔ m.isSortable entity s.field = true ∧ s.direction ∈ Direction.names := by
  simp [violations]

/-- A request breaks no rule if its filter breaks none and its sort key, if there is
    one, breaks none. -/
theorem violations_eq_nil_iff {m : Matrix} {limit : Int} {entity : String} {g : Group} {sort : Option SortKey} :
    violations m limit entity g sort = [] ↔ m.hasEntity entity = true ∧ g.violationsAt m entity limit 1 = [] ∧
      ∀ s ∈ sort, s.violations m entity = [] := by
  cases sort with
  | none => simp [violations, Group.violations_eq_nil_iff]
  | some s =>
    simp only [violations, List.append_eq_nil_iff, Group.violations_eq_nil_iff, and_assoc]
    refine and_congr_right fun known => and_congr_right fun _ => ?_
    simp [known]

end Criteria
