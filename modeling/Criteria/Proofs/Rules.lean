import Mathlib.Data.List.Forall2
import Criteria.Proofs.Accepted

/-!
The rules for a filter, one by one. `Report` lists what the rules find: an unknown entity
alone; otherwise, down the tree, a foreign value or a group that is too deep once, and
for any other group its connective, its conditions and its subgroups in order; then the
sort key. Exactly one list is reported, the one that is told, and it is empty if all is
as the rules want it (`violations_reported`).
-/
namespace Criteria

open Calendar (RelativeWindow)

/-! ### Conditions -/

/-- The operators that take a single operand, windows aside. -/
def Operator.takesValue (op : Operator) : Prop :=
  op.takesPair = false ∧ op.takesSet = false ∧ op.takesNothing = false ∧ op ≠ .dateRelative

namespace Condition

/-- What the rules find in the operand of a condition under an operator. -/
inductive OperandReport (c : Condition) : Operator → List Violation → Prop
  | fits {op : Operator} (fits : c.Fits op) : OperandReport c op []
  | notPair {op : Operator} (pair : op.takesPair = true) (other : ∀ low high, c.value ≠ .arr [low, high]) :
      OperandReport c op [.notPair op]
  | notDates {low high : Json} (pair : c.value = .arr [low, high]) (misfits : ¬ c.Fits .dateBetween) :
      OperandReport c .dateBetween [.notDates .dateBetween c.field]
  | notSet {op : Operator} (set : op.takesSet = true) (given : c.values ≠ .null)
      (other : ∀ items, c.values ≠ .arr items) : OperandReport c op [.notSet op]
  | noSet {op : Operator} (set : op.takesSet = true) (none : c.values = .null)
      (other : ∀ items, c.value ≠ .arr items) : OperandReport c op [.noSet op]
  | unknownWindow (other : ∀ w : RelativeWindow, c.value ≠ .str w.name) :
      OperandReport c .dateRelative [.unknownWindow c.value c.field]
  | noValue {op : Operator} (single : op.takesValue) (none : c.value = .null) :
      OperandReport c op [.noValue op c.field]
  | notDate {op : Operator} (single : op.takesValue) (dates : op.takesDates = true) (given : c.value ≠ .null)
      (other : ∀ moment, dateOperand c.value ≠ .ok moment) : OperandReport c op [.notDate op c.field]

/-- What the rules find in a condition on a field of an entity. -/
inductive Report (m : Matrix) (entity : String) (c : Condition) : List Violation → Prop
  | unsupportedField (unlisted : m.operators? entity c.field = none) :
      Report m entity c [.unsupportedField c.field entity]
  | unknownOperator {allowed : List Operator} (listed : m.operators? entity c.field = some allowed)
      (unnamed : ∀ op : Operator, c.operator ≠ op.name) : Report m entity c [.unknownOperator c.operator c.field]
  | allowed {allowed : List Operator} {op : Operator} {operand : List Violation}
      (listed : m.operators? entity c.field = some allowed) (named : c.operator = op.name) (inside : op ∈ allowed)
      (found : c.OperandReport op operand) : Report m entity c operand
  | notAllowed {allowed : List Operator} {op : Operator} {operand : List Violation}
      (listed : m.operators? entity c.field = some allowed) (named : c.operator = op.name) (outside : op ∉ allowed)
      (found : c.OperandReport op operand) : Report m entity c (.notAllowed op c.field :: operand)

theorem isDateOperand_eq_false_iff {x : Json} :
    isDateOperand x = false ↔ ∀ moment, dateOperand x ≠ .ok moment := by
  rw [← Bool.not_eq_true, isDateOperand_iff, not_exists]

theorem operandViolations_of_takesValue (c : Condition) {op : Operator} (single : op.takesValue) :
    c.operandViolations op =
      if c.value = .null then [.noValue op c.field]
      else if op.takesDates = true ∧ isDateOperand c.value = false then [.notDate op c.field]
      else [] := by
  obtain ⟨noPair, noSet, noNothing, noWindow⟩ := single
  simp [operandViolations, noPair, noSet, noNothing, noWindow, Json.isNull_iff]

/-- What is reported of an operand is what is told of it. -/
theorem OperandReport.eq {c : Condition} {op : Operator} {found : List Violation}
    (report : c.OperandReport op found) : found = c.operandViolations op := by
  cases report with
  | fits fits => exact ((operandViolations_eq_nil_iff c op).mpr fits).symm
  | notPair pair other =>
    rw [operandViolations, if_pos pair]
    split
    · rename_i low high isPair
      exact absurd isPair (other low high)
    · rfl
  | notDates pair misfits =>
    have some : c.operandViolations .dateBetween ≠ [] := mt (operandViolations_eq_nil_iff c .dateBetween).mp misfits
    simp only [operandViolations, pair, Operator.takesPair, if_true] at some ⊢
    split
    · rfl
    · rename_i dates
      rw [if_neg dates] at some
      exact absurd rfl some
  | notSet set given other =>
    have single : op.takesPair = false := by cases op <;> first | rfl | cases set
    have given' : c.values.isNull = false := Bool.not_eq_true _ ▸ mt Json.isNull_iff.mp given
    have noArray : c.values.isArray = false := by
      rw [← Bool.not_eq_true, Json.isArray_iff, not_exists]
      exact other
    simp [operandViolations, single, set, given', noArray]
  | noSet set none other =>
    have single : op.takesPair = false := by cases op <;> first | rfl | cases set
    have noArray : c.value.isArray = false := by
      rw [← Bool.not_eq_true, Json.isArray_iff, not_exists]
      exact other
    simp [operandViolations, single, set, none, Json.isNull, noArray]
  | unknownWindow other =>
    have unnamed : isWindowName c.value = false := by
      rw [← Bool.not_eq_true, isWindowName_iff, not_exists]
      exact other
    simp [operandViolations, Operator.takesPair, Operator.takesSet, Operator.takesNothing, unnamed]
  | noValue single none => rw [operandViolations_of_takesValue c single, if_pos none]
  | notDate single dates given other =>
    rw [operandViolations_of_takesValue c single, if_neg given,
      if_pos ⟨dates, isDateOperand_eq_false_iff.mpr other⟩]

/-- What is told of an operand is reported. -/
theorem operandReport_operandViolations (c : Condition) (op : Operator) :
    c.OperandReport op (c.operandViolations op) := by
  by_cases fits : c.Fits op
  · rw [(operandViolations_eq_nil_iff c op).mpr fits]
    exact .fits fits
  -- Each class of operators has one way to misfit, but dates can also be no pair.
  have misfits (found : List Violation) (report : c.OperandReport op found) :
      c.OperandReport op (c.operandViolations op) := report.eq ▸ report
  cases op with
  | between => exact misfits _ (.notPair rfl fun low high isPair => fits ⟨low, high, isPair⟩)
  | dateBetween =>
    by_cases pair : ∃ low high, c.value = .arr [low, high]
    · obtain ⟨low, high, isPair⟩ := pair
      exact misfits _ (.notDates isPair fits)
    · exact misfits _ (.notPair rfl fun low high isPair => pair ⟨low, high, isPair⟩)
  | oneOf | noneOf =>
    by_cases none : c.values = .null
    · exact misfits _ (.noSet rfl none fun items given => fits (.inr ⟨none, items, given⟩))
    · exact misfits _ (.notSet rfl none fun items given => fits (.inl ⟨items, given⟩))
  | isEmpty | isNotEmpty => exact absurd trivial fits
  | dateRelative => exact misfits _ (.unknownWindow fun w isName => fits ⟨w, isName⟩)
  | dateEquals | dateBefore | dateAfter =>
    by_cases none : c.value = .null
    · exact misfits _ (.noValue ⟨rfl, rfl, rfl, nofun⟩ none)
    · exact misfits _ (.notDate ⟨rfl, rfl, rfl, nofun⟩ rfl none fun moment read => fits ⟨moment, read⟩)
  | _ => exact misfits _ (.noValue ⟨rfl, rfl, rfl, nofun⟩ (Decidable.not_not.mp fits))

theorem report_iff {m : Matrix} {entity : String} {c : Condition} {found : List Violation} :
    c.Report m entity found ↔ found = c.violations m entity := by
  constructor
  · rintro (unlisted | ⟨listed, unnamed⟩ | ⟨listed, named, inside, operand⟩ | ⟨listed, named, outside, operand⟩)
    · rw [violations, unlisted]
    · have unknown : Operator.ofName? c.operator = none := by
        rw [← Option.not_isSome_iff_eq_none, Option.isSome_iff_exists, not_exists]
        intro op known
        exact unnamed op (Operator.ofName?_eq_some_iff.mp known).symm
      rw [violations, listed, unknown]
    · simp [violations, listed, named, Operator.ofName?_name, inside, operand.eq]
    · simp [violations, listed, named, Operator.ofName?_name, outside, operand.eq]
  · rintro rfl
    cases listed : m.operators? entity c.field with
    | none =>
      rw [violations, listed]
      exact .unsupportedField listed
    | some allowed =>
      cases known : Operator.ofName? c.operator with
      | none =>
        rw [violations, listed, known]
        refine .unknownOperator listed fun op named => ?_
        rw [named, Operator.ofName?_name] at known
        cases known
      | some op =>
        have named := (Operator.ofName?_eq_some_iff.mp known).symm
        have operand := operandReport_operandViolations c op
        rw [violations, listed, known]
        by_cases inside : op ∈ allowed
        · simpa [inside] using Report.allowed listed named inside operand
        · simpa [inside] using Report.notAllowed listed named inside operand

end Condition

/-- What the rules find in a member of a group. -/
inductive Member.Report (m : Matrix) (entity : String) : Member → List Violation → Prop
  | condition {c : Condition} {found : List Violation} (report : c.Report m entity found) :
      Report m entity (.condition c) found
  | foreign (value : Json) : Report m entity (.foreign value) [.foreignCondition]

theorem Member.report_iff {m : Matrix} {entity : String} {x : Member} {found : List Violation} :
    x.Report m entity found ↔ found = x.violations m entity := by
  cases x with
  | condition c =>
    constructor
    · rintro ⟨report⟩
      exact Condition.report_iff.mp report
    · intro told
      exact .condition (Condition.report_iff.mpr told)
  | foreign value =>
    constructor
    · rintro ⟨⟩
      rfl
    · rintro rfl
      exact .foreign value

/-! ### Trees -/

namespace Group

mutual

/-- What the rules find in a tree whose root is at a level. -/
inductive Report (m : Matrix) (entity : String) (limit : Int) : Int → Group → List Violation → Prop
  | foreign (level : Int) (value : Json) : Report m entity limit level (.foreign value) [.foreignGroup]
  | tooDeep {level : Int} (operator : String) (members : List Member) (groups : List Group)
      (deep : limit < level) : Report m entity limit level (.node operator members groups) [.tooDeep limit]
  | group {level : Int} (k : Connective) {members : List Member} {groups : List Group}
      {own : List (List Violation)} {nested : List Violation} (within : level ≤ limit)
      (membersFound : List.Forall₂ (Member.Report m entity) members own)
      (groupsFound : ReportOfAll m entity limit (level + 1) groups nested) :
      Report m entity limit level (.node k.name members groups) (own.flatten ++ nested)
  | unknownConnective {level : Int} {operator : String} {members : List Member} {groups : List Group}
      {own : List (List Violation)} {nested : List Violation} (within : level ≤ limit)
      (unnamed : ∀ k : Connective, operator ≠ k.name)
      (membersFound : List.Forall₂ (Member.Report m entity) members own)
      (groupsFound : ReportOfAll m entity limit (level + 1) groups nested) :
      Report m entity limit level (.node operator members groups)
        (.unknownConnective operator :: (own.flatten ++ nested))

/-- What the rules find in several trees whose roots are at a level, one after the other. -/
inductive ReportOfAll (m : Matrix) (entity : String) (limit : Int) : Int → List Group → List Violation → Prop
  | nil (level : Int) : ReportOfAll m entity limit level [] []
  | cons {level : Int} {g : Group} {rest : List Group} {first others : List Violation}
      (head : Report m entity limit level g first) (tail : ReportOfAll m entity limit level rest others) :
      ReportOfAll m entity limit level (g :: rest) (first ++ others)

end

variable {m : Matrix} {entity : String} {limit : Int}

theorem forall₂_memberReport_iff {members : List Member} {own : List (List Violation)} :
    List.Forall₂ (Member.Report m entity) members own ↔ own = members.map (Member.violations m entity) := by
  constructor
  · intro reports
    induction reports with
    | nil => rfl
    | cons head _ ih => rw [List.map_cons, Member.report_iff.mp head, ih]
  · rintro rfl
    refine List.forall₂_map_right_iff.mpr (List.forall₂_same.mpr fun x _ => ?_)
    exact Member.report_iff.mpr rfl

theorem violationsAt_node (level : Int) (operator : String) (members : List Member) (groups : List Group)
    (within : level ≤ limit) :
    violationsAt m entity limit level (.node operator members groups) =
      (if (Connective.ofName? operator).isSome then [] else [.unknownConnective operator]) ++
        ((members.map (Member.violations m entity)).flatten ++
          violationsOfAll m entity limit (level + 1) groups) := by
  rw [violationsAt, if_neg (by omega), List.append_assoc, List.flatMap_def]

theorem ofName?_isSome_eq_false_iff {operator : String} :
    (Connective.ofName? operator).isSome = false ↔ ∀ k : Connective, operator ≠ k.name := by
  rw [← Bool.not_eq_true, Option.isSome_iff_exists, not_exists]
  refine forall_congr' fun k => not_congr ?_
  rw [Connective.ofName?_eq_some_iff, eq_comm]

mutual

/-- What is reported of a tree is what is told of it. -/
theorem Report.eq : ∀ {level : Int} {g : Group} {found : List Violation},
    Report m entity limit level g found → found = violationsAt m entity limit level g
  | _, _, _, .foreign level value => by rw [violationsAt]
  | _, _, _, .tooDeep operator members groups deep => by rw [violationsAt, if_pos deep]
  | _, _, _, .group k within membersFound groupsFound => by
    rw [violationsAt_node _ _ _ _ within, Connective.ofName?_name, forall₂_memberReport_iff.mp membersFound,
      groupsFound.eq]
    rfl
  | _, _, _, .unknownConnective within unnamed membersFound groupsFound => by
    rw [violationsAt_node _ _ _ _ within, ofName?_isSome_eq_false_iff.mpr unnamed,
      forall₂_memberReport_iff.mp membersFound, groupsFound.eq]
    rfl

theorem ReportOfAll.eq : ∀ {level : Int} {groups : List Group} {found : List Violation},
    ReportOfAll m entity limit level groups found → found = violationsOfAll m entity limit level groups
  | _, _, _, .nil level => rfl
  | _, _, _, .cons head tail => by rw [violationsOfAll, head.eq, tail.eq]

end

mutual

/-- What is told of a tree is reported. -/
theorem report_violationsAt (level : Int) : ∀ g : Group,
    Report m entity limit level g (violationsAt m entity limit level g)
  | .node operator members groups => by
    by_cases deep : limit < level
    · rw [violationsAt, if_pos deep]
      exact .tooDeep operator members groups deep
    · have within : level ≤ limit := by omega
      have membersFound : List.Forall₂ (Member.Report m entity) members _ := forall₂_memberReport_iff.mpr rfl
      have groupsFound := reportOfAll_violationsOfAll (level + 1) groups
      rw [violationsAt_node _ _ _ _ within]
      cases known : Connective.ofName? operator with
      | some k =>
        obtain rfl := Connective.ofName?_eq_some_iff.mp known
        exact .group k within membersFound groupsFound
      | none =>
        refine .unknownConnective within ?_ membersFound groupsFound
        rw [← ofName?_isSome_eq_false_iff, known, Option.isSome_none]
  | .foreign value => by
    rw [violationsAt]
    exact .foreign level value

theorem reportOfAll_violationsOfAll (level : Int) : ∀ groups : List Group,
    ReportOfAll m entity limit level groups (violationsOfAll m entity limit level groups)
  | [] => .nil level
  | g :: rest => .cons (report_violationsAt level g) (reportOfAll_violationsOfAll level rest)

end

/-! ### Trees without violations -/

/-- A tree holds no foreign value, and all of its groups have a connective. -/
inductive WellFormed : Group → Prop
  | node (k : Connective) (cs : List Condition) {groups : List Group} (nested : ∀ g ∈ groups, WellFormed g) :
      WellFormed (.node k.name (cs.map .condition) groups)

theorem depths_le_iff {groups : List Group} {n : Nat} : depths groups ≤ n ↔ ∀ g ∈ groups, g.depth ≤ n := by
  induction groups with
  | nil => simp [depths]
  | cons g rest ih => rw [depths, Nat.max_le, ih, List.forall_mem_cons]

theorem exists_conditions_of_violations {members : List Member}
    (accepted : ∀ x ∈ members, x.violations m entity = []) : ∃ cs : List Condition, members = cs.map .condition := by
  induction members with
  | nil => exact ⟨[], rfl⟩
  | cons x rest ih =>
    obtain ⟨first, later⟩ := List.forall_mem_cons.mp accepted
    obtain ⟨cs, rfl⟩ := ih later
    cases x with
    | condition c => exact ⟨c :: cs, rfl⟩
    | foreign value => cases first

/-- A tree breaks no rule if it fits between its level and the limit, is well formed, and
    none of its conditions breaks a rule. -/
theorem violationsAt_eq_nil_iff {g : Group} {level : Int} :
    violationsAt m entity limit level g = [] ↔
      level + g.depth ≤ limit + 1 ∧ g.WellFormed ∧ ∀ c ∈ g.conditions, c.violations m entity = [] := by
  induction g using Group.induction generalizing level with
  | node operator members groups ih =>
    rw [violationsAt_node_eq_nil_iff, depth]
    constructor
    · rintro ⟨within, ⟨k, rfl⟩, own, nested⟩
      obtain ⟨cs, rfl⟩ := exists_conditions_of_violations own
      have parts (g : Group) (inside : g ∈ groups) := (ih g inside).mp (nested g inside)
      have deepest : depths groups ≤ (limit - level).toNat := by
        refine depths_le_iff.mpr fun g inside => ?_
        have := (parts g inside).1
        omega
      refine ⟨by omega, .node k cs fun g inside => (parts g inside).2.1, fun c inside => ?_⟩
      rcases mem_conditions_node_iff.mp inside with member | ⟨g, subgroup, deeper⟩
      · exact own _ member
      · exact (parts g subgroup).2.2 c deeper
    · rintro ⟨within, ⟨k, cs, nested⟩, accepted⟩
      have deepest : ∀ g ∈ groups, g.depth ≤ depths groups := depths_le_iff.mp (Nat.le_refl _)
      refine ⟨by omega, ⟨k, rfl⟩, fun x member => ?_, fun g inside => (ih g inside).mpr ⟨?_, nested g inside, ?_⟩⟩
      · obtain ⟨c, -, rfl⟩ := List.mem_map.mp member
        exact accepted c (mem_conditions_node_iff.mpr (.inl member))
      · have := deepest g inside
        omega
      · intro c deeper
        exact accepted c (mem_conditions_node_iff.mpr (.inr ⟨g, inside, deeper⟩))
  | foreign value =>
    refine ⟨nofun, ?_⟩
    rintro ⟨-, impossible, -⟩
    cases impossible

end Group

/-! ### Filters and sort keys -/

/-- What the rules find in a sort key: a field that is neither listed for the entity nor
    searched, and a direction that is not known. -/
def SortKey.complaints (m : Matrix) (entity : String) (s : SortKey) : List Violation :=
  (if s.field ∈ (m.fieldsOf entity).map (·.1) ∨ s.field ∈ m.searchFields entity then []
    else [.unsortableField entity s.field]) ++
  if s.direction = "asc" ∨ s.direction = "desc" then [] else [.unknownDirection s.direction]

theorem SortKey.complaints_eq (m : Matrix) (entity : String) (s : SortKey) :
    s.complaints m entity = s.violations m entity := by
  have direction : s.direction ∈ Direction.names ↔ s.direction = "asc" ∨ s.direction = "desc" := by
    simp [Direction.names, Direction.name]
  simp only [complaints, violations, Matrix.isSortable_iff, List.contains_iff_mem, direction]

theorem SortKey.complaints_eq_nil_iff {m : Matrix} {entity : String} {s : SortKey} :
    s.complaints m entity = [] ↔
      (s.field ∈ (m.fieldsOf entity).map (·.1) ∨ s.field ∈ m.searchFields entity) ∧
        (s.direction = "asc" ∨ s.direction = "desc") := by
  simp only [complaints, List.append_eq_nil_iff, ite_eq_left_iff, List.cons_ne_nil, imp_false, Decidable.not_not]

/-- What the rules find in a filter and a sort key. -/
inductive Report (m : Matrix) (limit : Int) (entity : String) (g : Group) (sort : Option SortKey) :
    List Violation → Prop
  | unknownEntity (unknown : m.hasEntity entity = false) : Report m limit entity g sort [.unknownEntity entity]
  | checked {tree : List Violation} (known : m.hasEntity entity = true) (found : g.Report m entity limit 1 tree) :
      Report m limit entity g sort (tree ++ sort.toList.flatMap (SortKey.complaints m entity))

/-- The violations of a filter and a sort key are those that the rules report, and there
    are none exactly if the entity is known, no group is deeper than the limit, the tree is
    well formed, each condition tests a listed field by an operator that it allows with an
    operand that fits, and the sort key has a field of the entity and a direction. This is
    for every matrix, tree, sort key and limit. -/
theorem violations_reported (m : Matrix) (limit : Int) (entity : String) (g : Group) (sort : Option SortKey) :
    (∀ found, Report m limit entity g sort found ↔ found = violations m limit entity g sort) ∧
    (violations m limit entity g sort = [] ↔
      m.hasEntity entity = true ∧ g.depth ≤ limit ∧ g.WellFormed ∧
      (∀ c ∈ g.conditions, ∃ allowed op, m.operators? entity c.field = some allowed ∧ c.operator = op.name ∧
        op ∈ allowed ∧ c.Fits op) ∧
      ∀ s ∈ sort, (s.field ∈ (m.fieldsOf entity).map (·.1) ∨ s.field ∈ m.searchFields entity) ∧
        (s.direction = "asc" ∨ s.direction = "desc")) := by
  have told : violations m limit entity g sort =
      if m.hasEntity entity then
        g.violationsAt m entity limit 1 ++ sort.toList.flatMap (SortKey.complaints m entity)
      else [.unknownEntity entity] := by
    by_cases known : m.hasEntity entity = true
    · cases sort <;> simp [violations, Group.violations, known, SortKey.complaints_eq]
    · cases sort <;> simp [violations, Group.violations, known]
  constructor
  · intro found
    rw [told]
    constructor
    · rintro (unknown | ⟨known, tree⟩)
      · rw [unknown]
        rfl
      · rw [if_pos known, tree.eq]
    · rintro rfl
      by_cases known : m.hasEntity entity = true
      · rw [if_pos known]
        exact .checked known (Group.report_violationsAt 1 g)
      · rw [if_neg known]
        exact .unknownEntity (Bool.not_eq_true _ ▸ known)
  · rw [violations_eq_nil_iff, Group.violationsAt_eq_nil_iff]
    simp only [Condition.violations_eq_nil_iff, ← SortKey.complaints_eq, SortKey.complaints_eq_nil_iff, and_assoc]
    have within : 1 + (g.depth : Int) ≤ limit + 1 ↔ (g.depth : Int) ≤ limit := by omega
    rw [within]

end Criteria
