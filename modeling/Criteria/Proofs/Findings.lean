import Criteria.Matrix.Packaged
import Criteria.Proofs.Levels
import Criteria.Proofs.WireForm

/-!
What can still be wrong with a request that was taken. Its shape has been checked, so its groups have
connectives and are not too deep, its conditions have operators and no set of operands but an array,
and its sort key has a direction (`Request.inForm_of_parse`). What the rules find is then a matter of
the matrix and of the operands: `Request.Finding` lists it, and the rules find nothing else
(`Request.mem_violations_iff_finding`).
-/
namespace Criteria

open Calendar (RelativeWindow)

/-- Whether a violation is one of form: it would be there for every matrix that has the entity and the
    field. -/
def Violation.isOfForm : Violation → Bool
  | foreignGroup | foreignCondition | tooDeep _ | unknownConnective _ | unknownOperator _ _ | notSet _ => true
  | unknownDirection _ => true
  | _ => false

/-! ### The form of a request -/

/-- The operator of a condition is known, and its set of operands is an array if there is one. -/
structure Condition.InForm (c : Condition) : Prop where
  operator : ∃ op : Operator, c.operator = op.name
  values : c.values = .null ∨ ∃ items, c.values = .arr items

/-- The parts of a request have the form that is asked of them. -/
structure Request.InForm (r : Request) : Prop where
  shallow : r.filters.depth ≤ 10
  wellFormed : r.filters.WellFormed
  conditions : ∀ c ∈ r.filters.conditions, c.InForm
  direction : ∀ s ∈ r.sort, s.direction ∈ Direction.names

namespace Json

theorem inForm_of_describesCondition {x : Json} {c : Condition} (described : x.DescribesCondition c) : c.InForm := by
  cases x with
  | obj entries =>
    obtain ⟨-, -, -, ⟨op, named, -⟩, -, values⟩ := described
    exact ⟨⟨op, named⟩, values.null_or_array⟩
  | _ => exact described.elim

/-- Every member of a list that an array describes is described by some item. -/
theorem Lists.exists_of_mem {α : Type} {R : Json → α → Prop} {v : Option Json} {found : List α}
    (lists : Lists R v found) {a : α} (inside : a ∈ found) : ∃ x, R x a := by
  cases lists with
  | absent => exact absurd inside List.not_mem_nil
  | present each =>
    obtain ⟨x, -, described⟩ := exists_mem_of_forall₂ each.flip a inside
    exact ⟨x, described⟩

theorem inForm_of_describesGroup {n : Nat} {x : Json} {g : Group} (described : DescribesGroup n x g) :
    g.WellFormed ∧ ∀ c ∈ g.conditions, c.InForm := by
  induction n generalizing x g with
  | zero => exact described.elim
  | succ n ih =>
    cases x with
    | obj entries =>
      cases described with
      | @node k cs groups named operator tests inner =>
        have below : ∀ g ∈ groups, g.WellFormed ∧ ∀ c ∈ g.conditions, c.InForm := by
          intro g inside
          obtain ⟨y, sub⟩ := inner.exists_of_mem inside
          exact ih sub
        refine ⟨.node k cs fun g inside => (below g inside).1, ?_⟩
        intro c inside
        rcases Group.mem_conditions_node_iff.mp inside with member | ⟨g, subgroup, deeper⟩
        · have listed : c ∈ cs := by simpa using member
          obtain ⟨y, described⟩ := tests.exists_of_mem listed
          exact inForm_of_describesCondition described
        · exact (below g subgroup).2 c deeper
    | _ => exact described.elim

theorem Ordered.mem_names {v : Option Json} {direction : String} (ordered : Ordered v direction) :
    direction ∈ Direction.names := by
  cases ordered with
  | absent => decide
  | present d => cases d <;> decide

theorem direction_of_describesSort {v : Option Json} {s : SortKey}
    (described : Optionally (AsObject SortEntries) v (some s)) : s.direction ∈ Direction.names := by
  cases described with
  | @present x _ described =>
    cases x with
    | obj entries => exact described.direction.mem_names
    | _ => exact described.elim

end Json

theorem Request.inForm_of_parse {payload : Payload} {r : Request} (taken : parse true payload = .ok r) : r.InForm := by
  obtain ⟨x, -, described⟩ := parse_eq_ok_iff.mp taken
  cases x with
  | obj entries =>
    obtain ⟨-, -, -, ⟨filters, -, group⟩, -, sort, -⟩ := described
    obtain ⟨shallow, -, read⟩ := Json.of_describesGroup group
    obtain ⟨wellFormed, conditions⟩ := Json.inForm_of_describesGroup group
    refine ⟨?_, wellFormed, conditions, ?_⟩
    · rw [← Group.levels_eq_depth read]
      exact shallow
    · intro s given
      rw [Option.mem_def.mp given] at sort
      exact Json.direction_of_describesSort sort
  | _ => exact described.elim

/-! ### Findings -/

namespace Condition

/-- What is wrong with the operand of a condition whose set of operands is in form. -/
inductive Misfit (c : Condition) : Operator → Violation → Prop
  | notPair {op : Operator} (pair : op.takesPair = true) (other : ∀ low high, c.value ≠ .arr [low, high]) :
      Misfit c op (.notPair op)
  | notDates {low high : Json} (pair : c.value = .arr [low, high]) (misfits : ¬ c.Fits .dateBetween) :
      Misfit c .dateBetween (.notDates .dateBetween c.field)
  | noSet {op : Operator} (set : op.takesSet = true) (none : c.values = .null)
      (other : ∀ items, c.value ≠ .arr items) : Misfit c op (.noSet op)
  | unknownWindow (other : ∀ w : RelativeWindow, c.value ≠ .str w.name) :
      Misfit c .dateRelative (.unknownWindow c.value c.field)
  | noValue {op : Operator} (single : op.takesValue) (none : c.value = .null) : Misfit c op (.noValue op c.field)
  | notDate {op : Operator} (single : op.takesValue) (dates : op.takesDates = true) (given : c.value ≠ .null)
      (other : ∀ moment, dateOperand c.value ≠ .ok moment) : Misfit c op (.notDate op c.field)

/-- What is wrong with a condition in form on a field of an entity. -/
inductive Finding (m : Matrix) (entity : String) (c : Condition) : Violation → Prop
  | unsupportedField (unlisted : m.operators? entity c.field = none) :
      Finding m entity c (.unsupportedField c.field entity)
  | notAllowed {allowed : List Operator} {op : Operator} (listed : m.operators? entity c.field = some allowed)
      (named : c.operator = op.name) (outside : op ∉ allowed) : Finding m entity c (.notAllowed op c.field)
  | misfit {allowed : List Operator} {op : Operator} {v : Violation}
      (listed : m.operators? entity c.field = some allowed) (named : c.operator = op.name) (misfit : c.Misfit op v) :
      Finding m entity c v

variable {m : Matrix} {entity : String} {c : Condition} {op : Operator} {v : Violation}

theorem mem_operandViolations_iff (inForm : c.InForm) : v ∈ c.operandViolations op ↔ c.Misfit op v := by
  constructor
  · intro told
    have report := operandReport_operandViolations c op
    generalize c.operandViolations op = found at told report
    cases report with
    | fits => exact absurd told List.not_mem_nil
    | notSet set given other =>
      rcases inForm.values with none | ⟨items, isArray⟩
      · exact absurd none given
      · exact absurd isArray (other items)
    | notPair pair other =>
      rw [List.mem_singleton.mp told]
      exact .notPair pair other
    | notDates pair misfits =>
      rw [List.mem_singleton.mp told]
      exact .notDates pair misfits
    | noSet set none other =>
      rw [List.mem_singleton.mp told]
      exact .noSet set none other
    | unknownWindow other =>
      rw [List.mem_singleton.mp told]
      exact .unknownWindow other
    | noValue single none =>
      rw [List.mem_singleton.mp told]
      exact .noValue single none
    | notDate single dates given other =>
      rw [List.mem_singleton.mp told]
      exact .notDate single dates given other
  · intro misfit
    have report : c.OperandReport op [v] := by
      cases misfit with
      | notPair pair other => exact .notPair pair other
      | notDates pair misfits => exact .notDates pair misfits
      | noSet set none other => exact .noSet set none other
      | unknownWindow other => exact .unknownWindow other
      | noValue single none => exact .noValue single none
      | notDate single dates given other => exact .notDate single dates given other
    rw [← report.eq]
    exact List.mem_singleton_self v

theorem mem_violations_iff (inForm : c.InForm) : v ∈ c.violations m entity ↔ c.Finding m entity v := by
  obtain ⟨op, named⟩ := inForm.operator
  have unique {other : Operator} (named' : c.operator = other.name) : op = other :=
    Operator.name_inj (named.symm.trans named')
  cases listed : m.operators? entity c.field with
  | none =>
    rw [violations, listed, List.mem_singleton]
    constructor
    · rintro rfl
      exact .unsupportedField listed
    · rintro (_ | ⟨listed', -, -⟩ | ⟨listed', -, -⟩)
      · rfl
      · rw [listed] at listed'
        cases listed'
      · rw [listed] at listed'
        cases listed'
  | some allowed =>
    rw [violations, listed, named, Operator.ofName?_name]
    simp only [List.mem_append, mem_operandViolations_iff inForm]
    constructor
    · rintro (notAllowed | misfit)
      · by_cases inside : op ∈ allowed
        · simp [inside] at notAllowed
        · have same : v = .notAllowed op c.field := by simpa [inside] using notAllowed
          rw [same]
          exact .notAllowed listed named inside
      · exact .misfit listed named misfit
    · rintro (unlisted | ⟨listed', named', outside⟩ | ⟨listed', named', misfit⟩)
      · rw [listed] at unlisted
        cases unlisted
      · obtain rfl := unique named'
        cases listed.symm.trans listed'
        left
        simp [outside]
      · obtain rfl := unique named'
        exact .inr misfit

end Condition

namespace Group

variable {m : Matrix} {entity : String} {limit level : Int}

/-- What is wrong with a tree that is well formed and not too deep is what is wrong with its
    conditions, in their order. -/
theorem violationsAt_eq_flatMap {g : Group} (wellFormed : g.WellFormed) (shallow : level + g.depth ≤ limit + 1) :
    violationsAt m entity limit level g = g.conditions.flatMap (Condition.violations m entity) := by
  induction wellFormed generalizing level with
  | @node k cs groups nested ih =>
    rw [depth] at shallow
    have below : ∀ g ∈ groups,
        violationsAt m entity limit (level + 1) g = g.conditions.flatMap (Condition.violations m entity) := by
      intro g inside
      have deepest := depths_le_iff.mp (Nat.le_refl _) g inside
      exact ih g inside (by omega)
    have own : (cs.map Member.condition).map (Member.violations m entity) = cs.map (Condition.violations m entity) := by
      rw [List.map_map]
      rfl
    rw [violationsAt_node _ _ _ _ (by omega), Connective.ofName?_name, own, violationsOfAll_eq_flatMap,
      List.flatMap_congr below, conditions_node, List.flatMap_append, List.flatMap_assoc, List.flatMap_def]
    rfl

end Group

namespace Request

/-- What the rules find in a request in form. -/
inductive Finding (m : Matrix) (r : Request) : Violation → Prop
  | unknownEntity (unknown : m.hasEntity r.entity = false) : Finding m r (.unknownEntity r.entity)
  | condition {c : Condition} {v : Violation} (known : m.hasEntity r.entity = true)
      (inside : c ∈ r.filters.conditions) (found : c.Finding m r.entity v) : Finding m r v
  | unsortableField {s : SortKey} (known : m.hasEntity r.entity = true) (given : r.sort = some s)
      (unlisted : s.field ∉ (m.fieldsOf r.entity).map (·.1)) (unsearched : s.field ∉ m.searchFields r.entity) :
      Finding m r (.unsortableField r.entity s.field)

variable {m : Matrix} {r : Request} {v : Violation}

theorem Finding.isOfForm_eq_false (finding : r.Finding m v) : v.isOfForm = false := by
  cases finding with
  | unknownEntity | unsortableField => rfl
  | condition known inside found =>
    cases found with
    | unsupportedField | notAllowed => rfl
    | misfit listed named misfit => cases misfit <;> rfl

theorem mem_violations_sort_iff {s : SortKey} {entity : String} (direction : s.direction ∈ Direction.names) :
    v ∈ s.violations m entity ↔ (s.field ∉ (m.fieldsOf entity).map (·.1) ∧ s.field ∉ m.searchFields entity) ∧
      v = .unsortableField entity s.field := by
  have directed : s.direction = "asc" ∨ s.direction = "desc" := by
    simpa [Direction.names, Direction.name] using direction
  rw [← SortKey.complaints_eq, SortKey.complaints, if_pos directed, List.append_nil, ← not_or]
  by_cases sortable : s.field ∈ (m.fieldsOf entity).map (·.1) ∨ s.field ∈ m.searchFields entity
  · rw [if_pos sortable]
    exact iff_of_false List.not_mem_nil fun both => both.1 sortable
  · rw [if_neg sortable, List.mem_singleton]
    exact (and_iff_right sortable).symm

theorem mem_violations_known_iff {limit : Int} (known : m.hasEntity r.entity = true) :
    v ∈ violations m limit r.entity r.filters r.sort ↔
      v ∈ r.filters.violationsAt m r.entity limit 1 ∨ ∃ s, r.sort = some s ∧ v ∈ s.violations m r.entity := by
  cases given : r.sort with
  | none => simp [violations, Group.violations, known]
  | some s => simp [violations, Group.violations, known]

theorem violations_unknown {limit : Int} (unknown : m.hasEntity r.entity = false) :
    violations m limit r.entity r.filters r.sort = [.unknownEntity r.entity] := by
  cases r.sort with
  | none => simp [violations, Group.violations, unknown]
  | some s => simp [violations, Group.violations, unknown]

/-- What the rules find in a request that was taken, with its shape checked, for any matrix and any limit
    that is no lower than the one of the check: an unknown entity; a field that is not listed, an
    operator that is not allowed, and an operand that is no pair, no dates, no set, no window, missing or
    no date, each of some condition; and a field that the rows are not sorted by. Of these things all that
    are there are found, and no others: none that is of the form of the request. -/
theorem mem_violations_iff_finding (m : Matrix) (limit : Int) (payload : Payload) (r : Request)
    (taken : parse true payload = .ok r) (deep : defaultDepth ≤ limit) :
    (∀ v, v ∈ violations m limit r.entity r.filters r.sort ↔ r.Finding m v) ∧
      ∀ v ∈ violations m limit r.entity r.filters r.sort, v.isOfForm = false := by
  obtain ⟨shallow, wellFormed, conditions, direction⟩ := inForm_of_parse taken
  rw [defaultDepth] at deep
  have found : ∀ v, v ∈ violations m limit r.entity r.filters r.sort ↔ r.Finding m v := by
    intro v
    by_cases known : m.hasEntity r.entity = true
    · have tree : v ∈ r.filters.violationsAt m r.entity limit 1 ↔
          ∃ c ∈ r.filters.conditions, c.Finding m r.entity v := by
        rw [Group.violationsAt_eq_flatMap wellFormed (by omega), List.mem_flatMap]
        exact exists_congr fun c => and_congr_right fun inside => Condition.mem_violations_iff (conditions c inside)
      rw [mem_violations_known_iff known, tree]
      constructor
      · rintro (⟨c, inside, finding⟩ | ⟨s, given, told⟩)
        · exact .condition known inside finding
        · obtain ⟨⟨unlisted, unsearched⟩, rfl⟩ := (mem_violations_sort_iff (direction s given)).mp told
          exact .unsortableField known given unlisted unsearched
      · rintro (unknown | ⟨-, inside, finding⟩ | ⟨-, given, unlisted, unsearched⟩)
        · rw [known] at unknown
          cases unknown
        · exact .inl ⟨_, inside, finding⟩
        · exact .inr ⟨_, given, (mem_violations_sort_iff (direction _ given)).mpr ⟨⟨unlisted, unsearched⟩, rfl⟩⟩
    · have unknown : m.hasEntity r.entity = false := Bool.eq_false_iff.mpr known
      rw [violations_unknown unknown, List.mem_singleton]
      constructor
      · rintro rfl
        exact .unknownEntity unknown
      · rintro (- | ⟨known', -, -⟩ | ⟨known', -, -, -⟩)
        · rfl
        · exact absurd known' known
        · exact absurd known' known
  exact ⟨found, fun v told => ((found v).mp told).isOfForm_eq_false⟩

/-- Deals among a status that is no list, below a group without conditions, sorted by their stage. -/
def dealsByStage : Json :=
  .obj [("entity", .str "deals"), ("sort", .obj [("field", .str "stage")]),
    ("filters", .obj [("operator", .str "AND"), ("groups", .arr [.obj [("operator", .str "OR"),
      ("conditions", .arr [.obj [("field", .str "status"), ("operator", .str "in"), ("value", .str "OPEN")]])]])])]

/-- They are taken for a request; its status makes no set and its stage no order. -/
theorem mem_violations_iff_finding_dealsByStage :
    let r : Request := ⟨"deals", .node "AND" [] [.node "OR" [.condition ⟨"status", "in", .str "OPEN", .null⟩] []],
      .null, some ⟨"stage", "asc"⟩, none⟩
    parse true (.value dealsByStage) = .ok r ∧ defaultDepth ≤ 10 ∧ r.Finding .packaged (.noSet .oneOf) ∧
      r.Finding .packaged (.unsortableField "deals" "stage") ∧
      ∀ v ∈ violations .packaged 10 r.entity r.filters r.sort, v.isOfForm = false := by
  intro r
  have taken : parse true (.value dealsByStage) = .ok r := rfl
  have deep : defaultDepth ≤ 10 := by decide
  obtain ⟨found, noForm⟩ := mem_violations_iff_finding .packaged 10 (.value dealsByStage) r taken deep
  exact ⟨taken, deep, (found _).mp (by decide), (found _).mp (by decide), noForm⟩

end Request

end Criteria
