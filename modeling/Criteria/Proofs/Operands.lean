import Criteria.Filter.Description
import Criteria.Matrix.Packaged
import Criteria.Predicate.Compilation
import Criteria.Proofs.Accepted

/-!
The operands of a condition. A condition is tested against its set of operands if its operator takes
sets and there is one, against its value if its operator takes an operand at all, and against nothing
otherwise (`Condition.operand`). The rules and compilation see nothing else of its operands
(`testsAlike_of_operand`). Its words show the set of operands wherever there is one, so they may show
an operand that is not the one of the test (`shown_eq_operand_iff`).
-/
namespace Criteria

open Calendar (Now)

/-- What a condition is tested against. -/
inductive Operand where
  | nothing
  | value (x : Json)
  | set (xs : Json)
deriving DecidableEq, Repr

namespace Operand

/-- The value to show for an operand, if there is one. -/
def given? : Operand → Option Json
  | nothing => none
  | value x => if x = .null ∨ x = .str "" then none else some x
  | set xs => if xs = .str "" ∨ xs = .arr [] then none else some xs

/-- What the words of a condition add for its operand. -/
def text (x : Operand) : String :=
  match x.given? with
  | none => ""
  | some x => " " ++ operandText x

end Operand

namespace Condition

/-- The operand of a condition under an operator. -/
def operandFor (c : Condition) (op : Operator) : Operand :=
  if op.takesNothing then .nothing
  else if op.takesSet && !c.values.isNull then .set c.values
  else .value c.value

/-- The operand of a condition. An unknown operator tests nothing. -/
def operand (c : Condition) : Operand :=
  match Operator.ofName? c.operator with
  | some op => c.operandFor op
  | none => .nothing

/-- The operand in the words of a condition. -/
def shown (c : Condition) : Operand :=
  if ((Operator.ofName? c.operator).map (·.takesNothing)).getD false then .nothing
  else if c.values.isNull then .value c.value
  else .set c.values

/-- The words of a condition before its operand. -/
def subject (labels : Labels) (c : Condition) : String :=
  (labels.lookup c.field).getD c.field ++ " " ++ spaced c.operator

variable {c d : Condition} {op : Operator} {now : Now}

/-! ### Words -/

theorem describe_eq (labels : Labels) (c : Condition) : c.describe labels = c.subject labels ++ c.shown.text := by
  unfold describe shown
  by_cases takes : ((Operator.ofName? c.operator).map (·.takesNothing)).getD false = true
  · rw [if_pos takes, if_pos takes]
    exact String.append_empty.symm
  · have operand : (if c.values.isNull then Operand.value c.value else .set c.values).given? = c.shownOperand? := by
      unfold shownOperand?
      split <;> rfl
    rw [if_neg takes, if_neg takes, Operand.text, operand]
    cases c.shownOperand? with
    | none => exact String.append_empty.symm
    | some x => exact String.append_assoc ..

/-- A condition shows the operand that it is tested against exactly if it has no set of operands, or
    its operator takes sets, or none. -/
theorem shown_eq_operand_iff (named : c.operator = op.name) :
    c.shown = c.operand ↔ op.takesSet = true ∨ op.takesNothing = true ∨ c.values = .null := by
  rw [shown, operand, named, Operator.ofName?_name, ← Json.isNull_iff]
  simp only [Option.map_some, Option.getD_some, operandFor]
  by_cases takes : op.takesNothing = true
  · simp [takes]
  · by_cases set : op.takesSet = true
    · by_cases none : c.values.isNull = true <;> simp [takes, set, none]
    · by_cases none : c.values.isNull = true <;> simp [takes, set, none]

/-! ### Tests -/

/-- The rules and compilation do not tell two conditions apart. -/
structure TestsAlike (c d : Condition) : Prop where
  violations (m : Matrix) (entity : String) : c.violations m entity = d.violations m entity
  compile (place : List String → Predicate → Predicate) (now : Now) : c.compile place now = d.compile place now

/-- What two conditions that have one operand under an operator have in common. -/
inductive Shared (op : Operator) (c d : Condition) : Prop
  | nothing (takes : op.takesNothing = true)
  | sets (set : op.takesSet = true) (given : c.values ≠ .null) (same : c.values = d.values)
  | noSets (set : op.takesSet = true) (none : c.values = .null) (none' : d.values = .null) (same : c.value = d.value)
  | values (one : op.takesSet = false) (same : c.value = d.value)

theorem operandFor_of_takesSet (set : op.takesSet = true) :
    c.operandFor op = if c.values = .null then .value c.value else .set c.values := by
  have takes : op.takesNothing = false := by cases op <;> first | rfl | cases set
  simp only [operandFor, takes, set, ← Json.isNull_iff]
  cases c.values.isNull <;> rfl

theorem shared_of_operandFor_eq (same : c.operandFor op = d.operandFor op) : Shared op c d := by
  by_cases takes : op.takesNothing = true
  · exact .nothing takes
  · by_cases set : op.takesSet = true
    · rw [operandFor_of_takesSet set, operandFor_of_takesSet set] at same
      by_cases none : c.values = .null
      · by_cases none' : d.values = .null
        · exact .noSets set none none' (by simpa [none, none'] using same)
        · simp [none, none'] at same
      · by_cases none' : d.values = .null
        · simp [none, none'] at same
        · exact .sets set none (by simpa [none, none'] using same)
    · exact .values (Bool.eq_false_iff.mpr set) (by simpa [operandFor, takes, set] using same)

theorem operandViolations_congr (field : c.field = d.field) (same : c.operandFor op = d.operandFor op) :
    c.operandViolations op = d.operandViolations op := by
  have single (set : op.takesSet = true) : op.takesPair = false := by cases op <;> first | rfl | cases set
  cases shared_of_operandFor_eq same with
  | nothing takes =>
    cases op with
    | isEmpty | isNotEmpty => rfl
    | _ => cases takes
  | sets set given same => simp [operandViolations, single set, set, ← same, mt Json.isNull_iff.mp given]
  | noSets set none none' same => simp [operandViolations, single set, set, none, none', Json.isNull, same]
  | values one same => simp only [operandViolations, one, same, field, Bool.false_eq_true, if_false]

theorem leafOf_congr (same : c.operandFor op = d.operandFor op) : c.leafOf now op = d.leafOf now op := by
  have sets (set : op.takesSet = true) (sets : c.operandSet = d.operandSet) : c.leafOf now op = d.leafOf now op := by
    cases op with
    | oneOf | noneOf => simp only [leafOf, sets]
    | _ => cases set
  cases shared_of_operandFor_eq same with
  | nothing takes =>
    cases op with
    | isEmpty | isNotEmpty => rfl
    | _ => cases takes
  | sets set given same => exact sets set (by simp [operandSet, ← same, mt Json.isNull_iff.mp given])
  | noSets set none none' same => exact sets set (by simp [operandSet, none, none', Json.isNull, same])
  | values one value =>
    cases op with
    | oneOf | noneOf => cases one
    | _ => simp only [leafOf, value]

/-- The rules and compilation do not tell conditions of one field and one operator apart if what they
    say of the operands is the same. -/
theorem testsAlike_of_parts (field : c.field = d.field) (operator : c.operator = d.operator)
    (violations : ∀ op : Operator, d.operator = op.name → c.operandViolations op = d.operandViolations op)
    (leaf : ∀ (op : Operator) (now : Now), d.operator = op.name → c.leafOf now op = d.leafOf now op) :
    c.TestsAlike d := by
  constructor
  · intro m entity
    unfold Condition.violations
    rw [field, operator]
    cases known : Operator.ofName? d.operator with
    | none => rfl
    | some op => simp only [violations op (Operator.ofName?_eq_some_iff.mp known).symm]
  · intro place now
    unfold compile Condition.leaf path
    rw [field, operator]
    cases known : Operator.ofName? d.operator with
    | none => rfl
    | some op => simp only [leaf op now (Operator.ofName?_eq_some_iff.mp known).symm]

/-- The rules and compilation see of a condition its field, its operator and the operand of its test. -/
theorem testsAlike_of_operand (field : c.field = d.field) (operator : c.operator = d.operator)
    (same : c.operand = d.operand) : c.TestsAlike d := by
  have operand (op : Operator) (named : d.operator = op.name) : c.operandFor op = d.operandFor op := by
    rw [Condition.operand, Condition.operand, operator, named, Operator.ofName?_name] at same
    exact same
  exact testsAlike_of_parts field operator (fun op named => operandViolations_congr field (operand op named))
    fun op now named => leafOf_congr (operand op named)

/-! ### Other operands -/

theorem takesSet_iff : (∃ op : Operator, c.operator = op.name ∧ op.takesSet = true) ↔
    c.operator = Operator.oneOf.name ∨ c.operator = Operator.noneOf.name := by
  constructor
  · rintro ⟨op, named, set⟩
    cases op with
    | oneOf => exact .inl named
    | noneOf => exact .inr named
    | _ => cases set
  · rintro (named | named)
    · exact ⟨_, named, rfl⟩
    · exact ⟨_, named, rfl⟩

theorem takesNothing_iff : (∃ op : Operator, c.operator = op.name ∧ op.takesNothing = true) ↔
    c.operator = Operator.isEmpty.name ∨ c.operator = Operator.isNotEmpty.name := by
  constructor
  · rintro ⟨op, named, takes⟩
    cases op with
    | isEmpty => exact .inl named
    | isNotEmpty => exact .inr named
    | _ => cases takes
  · rintro (named | named)
    · exact ⟨_, named, rfl⟩
    · exact ⟨_, named, rfl⟩

theorem describe_eq_describe_iff (labels : Labels) (field : c.field = d.field) (operator : c.operator = d.operator) :
    c.describe labels = d.describe labels ↔ c.shown.text = d.shown.text := by
  rw [describe_eq, describe_eq, subject, subject, field, operator, String.append_right_inj]

theorem operand_of_other_values (xs : Json)
    (single : ¬ (c.operator = Operator.oneOf.name ∨ c.operator = Operator.noneOf.name)) :
    { c with values := xs }.operand = c.operand := by
  rw [← takesSet_iff] at single
  unfold operand
  cases known : Operator.ofName? c.operator with
  | none => rfl
  | some op =>
    have one : op.takesSet = false :=
      Bool.eq_false_iff.mpr fun set => single ⟨op, (Operator.ofName?_eq_some_iff.mp known).symm, set⟩
    simp [operandFor, one]

/-- Two conditions that have the same operand and show the same one. -/
structure SameOperands (c d : Condition) : Prop where
  operand : c.operand = d.operand
  shown : c.shown = d.shown

theorem sameOperands_of_other_value (x : Json) (named : c.operator = op.name) (set : op.takesSet = true)
    (given : c.values ≠ .null) : { c with value := x }.SameOperands c := by
  constructor
  · simp [operand, named, Operator.ofName?_name, operandFor_of_takesSet set, given]
  · simp [shown, mt Json.isNull_iff.mp given]

theorem sameOperands_of_others (x xs : Json) (named : c.operator = op.name) (takes : op.takesNothing = true) :
    { c with value := x, values := xs }.SameOperands c := by
  constructor
  · simp [operand, named, Operator.ofName?_name, operandFor, takes]
  · simp [shown, named, Operator.ofName?_name, takes]

theorem SameOperands.alike (same : c.SameOperands d) (field : c.field = d.field) (operator : c.operator = d.operator) :
    c.TestsAlike d ∧ ∀ labels, c.describe labels = d.describe labels :=
  ⟨testsAlike_of_operand field operator same.operand,
    fun labels => (describe_eq_describe_iff labels field operator).mpr (congrArg Operand.text same.shown)⟩

/-- What a condition depends on besides its field and its operator, for every matrix and entity and at
    every present moment. Its operand is all that the rules and compilation see. Its words show the set
    of operands if there is one, and this is the operand exactly if the operator takes sets or nothing,
    or there is no set. So another set changes neither what the rules say nor the predicate if the
    operator takes no sets, but it changes the words to those of the other operand shown. Another value
    changes nothing at all if the operator takes sets and one is given, and no operands do if the
    operator takes none. -/
theorem operand_decides (c : Condition) :
    (∀ d : Condition, d.field = c.field → d.operator = c.operator → d.operand = c.operand → d.TestsAlike c) ∧
    (∀ labels, c.describe labels = c.subject labels ++ c.shown.text) ∧
    (∀ op : Operator, c.operator = op.name →
      (c.shown = c.operand ↔ op.takesSet = true ∨ op.takesNothing = true ∨ c.values = .null)) ∧
    (∀ xs : Json, ¬ (c.operator = Operator.oneOf.name ∨ c.operator = Operator.noneOf.name) →
      { c with values := xs }.TestsAlike c ∧ ∀ labels, { c with values := xs }.describe labels = c.describe labels ↔
        { c with values := xs }.shown.text = c.shown.text) ∧
    (∀ x : Json, c.operator = Operator.oneOf.name ∨ c.operator = Operator.noneOf.name → c.values ≠ .null →
      { c with value := x }.TestsAlike c ∧ ∀ labels, { c with value := x }.describe labels = c.describe labels) ∧
    ∀ x xs : Json, c.operator = Operator.isEmpty.name ∨ c.operator = Operator.isNotEmpty.name →
      { c with value := x, values := xs }.TestsAlike c ∧
        ∀ labels, { c with value := x, values := xs }.describe labels = c.describe labels := by
  refine ⟨fun d => testsAlike_of_operand, fun labels => describe_eq labels c, fun op => shown_eq_operand_iff,
    fun xs single => ?_, fun x sets given => ?_, fun x xs nothing => ?_⟩
  · exact ⟨testsAlike_of_operand rfl rfl (operand_of_other_values xs single),
      fun labels => describe_eq_describe_iff labels rfl rfl⟩
  · obtain ⟨op, named, set⟩ := takesSet_iff.mpr sets
    exact (sameOperands_of_other_value x named set given).alike rfl rfl
  · obtain ⟨op, named, takes⟩ := takesNothing_iff.mpr nothing
    exact (sameOperands_of_others x xs named takes).alike rfl rfl

/-- A value beside a set of statuses changes nothing, and neither do operands of an operator that takes
    none; a set beside the status to look for is all that its words show. -/
theorem operand_decides_status :
    let among : Condition := ⟨"status", "in", .null, .arr [.str "OPEN", .str "WON"]⟩
    let empty : Condition := ⟨"ownerId", "is_empty", .null, .null⟩
    let isOpen : Condition := ⟨"status", "equals", .str "OPEN", .null⟩
    { among with value := .str "LOST" }.TestsAlike among ∧
      { among with value := .str "LOST" }.describe [] = among.describe [] ∧
      { empty with value := .int 1, values := .arr [] }.TestsAlike empty ∧
      { isOpen with values := .arr [.str "WON"] }.TestsAlike isOpen ∧
      { isOpen with values := .arr [.str "WON"] }.describe [] ≠ isOpen.describe [] := by
  intro among empty isOpen
  obtain ⟨-, -, -, -, otherValue, -⟩ := operand_decides among
  obtain ⟨-, -, -, -, -, others⟩ := operand_decides empty
  obtain ⟨-, -, -, otherValues, -, -⟩ := operand_decides isOpen
  obtain ⟨amongAlike, amongWords⟩ := otherValue (.str "LOST") (.inl rfl) nofun
  obtain ⟨openAlike, openWords⟩ := otherValues (.arr [.str "WON"]) (by decide)
  refine ⟨amongAlike, amongWords [], (others (.int 1) (.arr []) (.inl rfl)).1, openAlike, ?_⟩
  rw [Ne, openWords []]
  decide

/-- Open deals are found by a condition that also has a set of operands, and its words tell of won
    ones. -/
theorem equals_shows_other_operand :
    let c : Condition := ⟨"status", "equals", .str "OPEN", .arr [.str "WON"]⟩
    c.violations .packaged "deals" = [] ∧
      (∀ now, c.compile .nest now = .ok (.object [("status", .object [("equals", .text "OPEN")])])) ∧
      c.describe [] = "status equals WON" ∧ { c with values := .null }.describe [] = "status equals \"OPEN\"" :=
  ⟨by decide, fun _ => rfl, by decide, by decide⟩

end Condition

end Criteria
