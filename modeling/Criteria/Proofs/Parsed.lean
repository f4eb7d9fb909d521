import Criteria.Proofs.Conformity
import Criteria.Proofs.Outcome
import Criteria.Request.Parsing

/-!
The parser takes exactly what the grammar allows, and takes it for what it describes.
A value that conforms to the shape of a part of a request describes one, and a value
that describes one conforms to its shape and is read as it (`Json.exists_group` and
`Json.of_describesGroup` for groups, and so for the other parts). With both,
`Request.parse_iff_describes` says which values are taken for which requests, and that
all others are refused with reasons.
-/
namespace Criteria

open Schema (Conforms Meets)

namespace Json

variable {α : Type}

theorem textOr_of_lookup (default : String) {name s : String} {entries : List (String × Json)}
    (found : entries.lookup name = some (str s)) : textOr default name entries = s := by
  rw [textOr, found]
  rfl

/-! ### Lists -/

theorem exists_lists {R : Json → α → Prop} {v : Option Json}
    (each : ∀ x, v = some x → ∃ items, x = arr items ∧ ∀ y ∈ items, ∃ a, R y a) : ∃ found, Lists R v found := by
  cases v with
  | none => exact ⟨[], .absent⟩
  | some x =>
    obtain ⟨items, rfl, described⟩ := each x rfl
    obtain ⟨found, related⟩ := exists_forall₂ described
    exact ⟨found, .present related⟩

theorem Lists.imp {R S : Json → α → Prop} {v : Option Json} {found : List α}
    (implies : ∀ x a, R x a → S x a) (lists : Lists R v found) : Lists S v found := by
  cases lists with
  | absent => exact .absent
  | present each => exact .present (each.imp implies)

theorem Lists.forall_mem {R : Json → α → Prop} {C : Json → Prop} {v : Option Json} {found : List α}
    (lists : Lists R v found) {x : Json} (given : v = some x) (implies : ∀ y a, R y a → C y) :
    ∃ items, x = arr items ∧ ∀ y ∈ items, C y := by
  cases lists with
  | absent => cases given
  | @present items _ each =>
    cases given
    exact ⟨items, rfl, forall_mem_of_forall₂ each implies⟩

end Json

open Schema

/-! ### Conditions -/

theorem Json.exists_operands {v : Option Json} (arrays : ∀ x, v = some x → Conforms .list x) :
    ∃ operands, Json.Operands v operands := by
  cases v with
  | none => exact ⟨.null, .absent⟩
  | some x =>
    obtain ⟨items, rfl⟩ := conforms_list_iff.mp (arrays x rfl)
    exact ⟨.arr items, .present items⟩

theorem Json.Operands.conforms {x operands : Json} (given : Json.Operands (some x) operands) : Conforms .list x := by
  cases given with
  | present items => exact conforms_list_iff.mpr ⟨items, rfl⟩

theorem Json.Operands.getD_eq {v : Option Json} {operands : Json} (given : Json.Operands v operands) :
    v.getD .null = operands := by
  cases given <;> rfl

theorem Json.exists_condition {x : Json} (conforms : Conforms .condition x) : ∃ c, x.DescribesCondition c := by
  obtain ⟨entries, rfl⟩ := exists_entries_of_conforms rfl conforms
  obtain ⟨named, shaped, complete⟩ := (conforms_obj_iff rfl List.mem_cons_self).mp conforms
  have field : ("field", Shape.name) ∈ Shape.condition.entries := by decide
  have operator : ("operator", Shape.operator) ∈ Shape.condition.entries := by decide
  obtain ⟨_, isField, name⟩ := exists_required shaped complete field (by decide)
  obtain ⟨_, isOperator, operator⟩ := exists_required shaped complete operator (by decide)
  obtain ⟨field, notEmpty, rfl⟩ := conforms_name_iff.mp name
  obtain ⟨op, rfl⟩ := conforms_operator_iff.mp operator
  obtain ⟨operands, values⟩ := Json.exists_operands (shaped ("values", .list) (by decide))
  exact ⟨⟨field, op.name, Json.getOrNull "value" entries, operands⟩, named, isField, notEmpty, ⟨op, rfl, isOperator⟩,
    rfl, values⟩

theorem Json.conforms_of_describesCondition {x : Json} {c : Condition} (described : x.DescribesCondition c) :
    Conforms .condition x := by
  cases x with
  | obj entries =>
    obtain ⟨named, field, notEmpty, ⟨op, -, operator⟩, -, values⟩ := described
    refine (conforms_obj_iff rfl List.mem_cons_self).mpr ⟨named, ?_, ?_⟩
    · intro e inside y found
      change e ∈ [("field", .name), ("operator", .operator), ("value", .any), ("values", .list)] at inside
      simp only [List.mem_cons, List.not_mem_nil, or_false] at inside
      rcases inside with rfl | rfl | rfl | rfl
      · cases field.symm.trans found
        exact conforms_name_iff.mpr ⟨c.field, notEmpty, rfl⟩
      · cases operator.symm.trans found
        exact conforms_operator_iff.mpr ⟨op, rfl⟩
      · exact conforms_any
      · rw [found] at values
        exact values.conforms
    · rw [List.forall_mem_singleton, meets_required_iff, List.forall_mem_cons, List.forall_mem_singleton]
      exact ⟨⟨_, field⟩, _, operator⟩
  | _ => cases described

theorem Condition.ofJson_of_described {x : Json} {c : Condition} (described : x.DescribesCondition c) :
    Condition.ofJson x = .ok c := by
  cases x with
  | obj entries =>
    obtain ⟨-, field, -, ⟨op, named, operator⟩, value, values⟩ := described
    have operands : Json.getOrNull "values" entries = c.values := values.getD_eq
    have fields : Condition.ofJson (.obj entries) = .ok ⟨Json.textOr "" "field" entries,
      Json.textOr "" "operator" entries, Json.getOrNull "value" entries, Json.getOrNull "values" entries⟩ := rfl
    rw [fields, Json.textOr_of_lookup "" field, Json.textOr_of_lookup "" operator, ← named, ← value, operands]
  | _ => cases described

/-! ### Groups -/

theorem Condition.listOfJson_of_lists {v : Option Json} {conditions : List Condition}
    (lists : Json.Lists Json.DescribesCondition v conditions) :
    Condition.listOfJson (v.getD .null) = .ok conditions := by
  cases lists with
  | absent => rfl
  | @present items _ each =>
    have read := mapM_eq_ok_iff.mpr (each.imp fun x c => Condition.ofJson_of_described)
    cases items with
    | nil => exact read
    | cons x rest => exact read

namespace Group

theorem ofItems_eq_mapM (items : List Json) : ofItems items = items.mapM ofJson := by
  induction items with
  | nil => rfl
  | cons x rest ih =>
    rw [ofItems, List.mapM_cons, ih]

theorem listOfJson_of_lists {v : Option Json} {groups : List Group}
    (lists : Json.Lists (fun x g => ofJson x = .ok g) v groups) : listOfJson (v.getD .null) = .ok groups := by
  cases lists with
  | absent => rfl
  | present each =>
    rw [Option.getD_some, listOfJson, ofItems_eq_mapM]
    exact mapM_eq_ok_iff.mpr each

end Group

namespace Json

theorem levels_pos (x : Json) : 0 < x.levels := by
  cases x with
  | obj entries => exact Nat.succ_pos _
  | _ => exact Nat.one_pos

theorem levelsInItems_le_iff {items : List Json} {n : Nat} :
    levelsInItems items ≤ n ↔ ∀ x ∈ items, x.levels ≤ n := by
  induction items with
  | nil => simp [levelsInItems]
  | cons x rest ih => rw [levelsInItems, Nat.max_le, ih, List.forall_mem_cons]

theorem levels_obj_le_iff {entries : List (String × Json)} {n : Nat} :
    (obj entries).levels ≤ n + 1 ↔
      ∀ items, entries.lookup "groups" = some (arr items) → ∀ x ∈ items, x.levels ≤ n := by
  rw [levels, levelsInEntries_eq, getOrNull, Nat.add_le_add_iff_right]
  cases found : entries.lookup "groups" with
  | none => simp [levelsInList]
  | some x =>
    cases x with
    | arr items => simp [levelsInList, levelsInItems_le_iff]
    | _ => simp [levelsInList]

/-- A value of the shape of a group and of no more levels than may be describes a group. -/
theorem exists_group {n : Nat} {x : Json} (shallow : x.levels ≤ n) (conforms : Conforms .group x) :
    ∃ g, DescribesGroup n x g := by
  -- The induction is on the levels that are left: a subgroup may have one fewer.
  induction n generalizing x with
  | zero => exact absurd shallow (Nat.not_le_of_gt x.levels_pos)
  | succ n ih =>
    obtain ⟨entries, rfl⟩ := exists_entries_of_conforms rfl conforms
    obtain ⟨named, shaped, complete⟩ := (conforms_obj_iff rfl List.mem_cons_self).mp conforms
    have operator : ("operator", Shape.connective) ∈ Shape.group.entries := by decide
    obtain ⟨_, isOperator, connective⟩ := exists_required shaped complete operator (by decide)
    obtain ⟨k, rfl⟩ := conforms_connective_iff.mp connective
    have tests : ∃ found, Lists DescribesCondition (entries.lookup "conditions") found := by
      refine exists_lists fun x given => ?_
      have listed := shaped ("conditions", .conditions) (by decide) x given
      obtain ⟨items, rfl, each⟩ := (conforms_items_iff rfl).mp listed
      exact ⟨items, rfl, fun y inside => exists_condition (each y inside)⟩
    have inner : ∃ found, Lists (DescribesGroup n) (entries.lookup "groups") found := by
      refine exists_lists fun x given => ?_
      have listed := shaped ("groups", .groups) (by decide) x given
      obtain ⟨items, rfl, each⟩ := (conforms_items_iff rfl).mp listed
      exact ⟨items, rfl, fun y inside => ih (levels_obj_le_iff.mp shallow items given y inside) (each y inside)⟩
    obtain ⟨conditions, tests⟩ := tests
    obtain ⟨groups, inner⟩ := inner
    exact ⟨_, .node named isOperator tests inner⟩

/-- A value that describes a group has its shape and no more levels than may be, and is
    read as the group. -/
theorem of_describesGroup {n : Nat} {x : Json} {g : Group} (described : DescribesGroup n x g) :
    x.levels ≤ n ∧ Conforms .group x ∧ Group.ofJson x = .ok g := by
  induction n generalizing x g with
  | zero => exact described.elim
  | succ n ih =>
    cases x with
    | obj entries =>
      cases described with
      | @node k conditions groups named operator tests inner =>
        refine ⟨levels_obj_le_iff.mpr ?_, ?_, ?_⟩
        · intro items given
          obtain ⟨_, same, each⟩ := inner.forall_mem (C := fun x => x.levels ≤ n) given fun _ _ sub => (ih sub).1
          cases same
          exact each
        · refine (conforms_obj_iff rfl List.mem_cons_self).mpr ⟨named, ?_, ?_⟩
          · intro e inside y found
            change e ∈ [("operator", .connective), ("conditions", .conditions), ("groups", .groups)] at inside
            simp only [List.mem_cons, List.not_mem_nil, or_false] at inside
            rcases inside with rfl | rfl | rfl
            · cases operator.symm.trans found
              exact conforms_connective_iff.mpr ⟨k, rfl⟩
            · exact (conforms_items_iff rfl).mpr (tests.forall_mem found fun _ _ => conforms_of_describesCondition)
            · exact (conforms_items_iff rfl).mpr (inner.forall_mem found fun _ _ sub => (ih sub).2.1)
          · rw [List.forall_mem_singleton, meets_required_iff, List.forall_mem_singleton]
            exact ⟨_, operator⟩
        · have listed := Condition.listOfJson_of_lists tests
          have nested := Group.listOfJson_of_lists (inner.imp fun _ _ sub => (ih sub).2.2)
          rw [Group.ofJson, Group.ofEntries_eq, textOr_of_lookup _ operator, getOrNull, listed, getOrNull, nested]
          rfl
    | _ => exact described.elim

/-! ### Sort keys and pages -/

theorem isVacant_obj_of_lookup {entries : List (String × Json)} {name : String} {x : Json}
    (found : entries.lookup name = some x) : (obj entries).isVacant = false := by
  cases entries with
  | nil => cases found
  | cons e rest => rfl

theorem exists_ordered {v : Option Json} (conforms : ∀ x, v = some x → Conforms .direction x) :
    ∃ direction, Ordered v direction := by
  cases v with
  | none => exact ⟨_, .absent⟩
  | some x =>
    obtain ⟨d, rfl⟩ := conforms_direction_iff.mp (conforms x rfl)
    exact ⟨_, .present d⟩

theorem Ordered.conforms {x : Json} {direction : String} (ordered : Ordered (some x) direction) :
    Conforms .direction x := by
  cases ordered with
  | present d => exact conforms_direction_iff.mpr ⟨d, rfl⟩

theorem Ordered.textOr_eq {name direction : String} {entries : List (String × Json)}
    (ordered : Ordered (entries.lookup name) direction) :
    textOr Direction.ascending.name name entries = direction := by
  rw [textOr]
  generalize entries.lookup name = v at ordered
  cases ordered <;> rfl

theorem exists_sort {v : Option Json} (conforms : ∀ x, v = some x → Conforms .sort x) :
    ∃ s, Optionally (AsObject SortEntries) v s := by
  cases v with
  | none => exact ⟨none, .absent⟩
  | some x =>
    rcases null_or_exists_entries_of_conforms rfl (conforms x rfl) with rfl | ⟨entries, rfl⟩
    · exact ⟨none, .null⟩
    · obtain ⟨named, shaped, complete⟩ := (conforms_obj_iff rfl List.mem_cons_self).mp (conforms _ rfl)
      have field : ("field", Shape.name) ∈ Shape.sort.entries := by decide
      obtain ⟨_, isField, name⟩ := exists_required shaped complete field (by decide)
      obtain ⟨field, notEmpty, rfl⟩ := conforms_name_iff.mp name
      obtain ⟨direction, ordered⟩ := exists_ordered (shaped ("direction", .direction) (by decide))
      exact ⟨some ⟨field, direction⟩, .present ⟨named, isField, notEmpty, ordered⟩⟩

theorem of_describesSort {v : Option Json} {s : Option SortKey}
    (described : Optionally (AsObject SortEntries) v s) :
    (∀ x, v = some x → Conforms .sort x) ∧ optional SortKey.ofJson (v.getD .null) = .ok s := by
  cases described with
  | absent => exact ⟨nofun, rfl⟩
  | null => exact ⟨fun _ given => Option.some.inj given ▸ conforms_null (.inl rfl), rfl⟩
  | @present x s described =>
    cases x with
    | obj entries =>
      obtain ⟨named, field, notEmpty, ordered⟩ := described
      refine ⟨?_, ?_⟩
      · rintro _ ⟨rfl⟩
        refine (conforms_obj_iff rfl List.mem_cons_self).mpr ⟨named, ?_, ?_⟩
        · intro e inside y found
          change e ∈ [("field", .name), ("direction", .direction)] at inside
          simp only [List.mem_cons, List.not_mem_nil, or_false] at inside
          rcases inside with rfl | rfl
          · cases field.symm.trans found
            exact conforms_name_iff.mpr ⟨s.field, notEmpty, rfl⟩
          · rw [found] at ordered
            exact ordered.conforms
        · rw [List.forall_mem_singleton, meets_required_iff, List.forall_mem_singleton]
          exact ⟨_, field⟩
      · have read : SortKey.ofJson (obj entries) = .ok s := by
          have fields : SortKey.ofJson (obj entries) = .ok ⟨textOr "" "field" entries,
            textOr Direction.ascending.name "direction" entries⟩ := rfl
          rw [fields, textOr_of_lookup "" field, ordered.textOr_eq]
        rw [Option.getD_some, optional, isVacant_obj_of_lookup field, read]
        rfl
    | _ => exact described.elim

theorem toInteger_of_isInteger {x : Json} {n : Int} (integer : x.IsInteger n) : x.toInteger = .ok n := by
  cases x with
  | int m => exact congrArg Except.ok integer
  | float x => rw [toInteger, Binary64.truncate?_of_isExactly integer]
  | _ => exact integer.elim

theorem exists_count (default : Int) {v : Option Json} (conforms : ∀ x, v = some x → Conforms .count x) :
    ∃ n, Count default v n := by
  cases v with
  | none => exact ⟨default, .absent⟩
  | some x =>
    obtain ⟨n, integer, positive⟩ := conforms_count_iff.mp (conforms x rfl)
    exact ⟨n, .present integer positive⟩

theorem Count.conforms {default n : Int} {x : Json} (count : Count default (some x) n) : Conforms .count x := by
  cases count with
  | present integer positive => exact conforms_count_iff.mpr ⟨n, integer, positive⟩

theorem Count.integerOr_eq {default n : Int} {name : String} {entries : List (String × Json)}
    (count : Count default (entries.lookup name) n) : integerOr default name entries = .ok n := by
  rw [integerOr, getOrNull]
  generalize entries.lookup name = v at count
  cases count with
  | absent => rfl
  | present integer positive =>
    simp only [Option.getD_some, isVacant_eq_false_of_isInteger integer positive, toInteger_of_isInteger integer]
    rfl

theorem exists_page {v : Option Json} (conforms : ∀ x, v = some x → Conforms .pagination x) :
    ∃ p, Paging v p := by
  cases v with
  | none => exact ⟨none, .optional .absent⟩
  | some x =>
    rcases null_or_exists_entries_of_conforms rfl (conforms x rfl) with rfl | ⟨entries, rfl⟩
    · exact ⟨none, .optional .null⟩
    · obtain ⟨named, shaped, -⟩ := (conforms_obj_iff rfl List.mem_cons_self).mp (conforms _ rfl)
      obtain ⟨number, page⟩ := exists_count 1 (shaped ("page", .count) (by decide))
      obtain ⟨limit, size⟩ := exists_count 0 (shaped ("limit", .count) (by decide))
      by_cases empty : entries = []
      · subst empty
        exact ⟨none, .noEntries⟩
      · exact ⟨some ⟨number, limit⟩, .optional (.present ⟨named, empty, page, size⟩)⟩

theorem of_describesPage {v : Option Json} {p : Option PageRequest} (described : Paging v p) :
    (∀ x, v = some x → Conforms .pagination x) ∧ optional PageRequest.ofJson (v.getD .null) = .ok p := by
  have shaped : ∀ {entries : List (String × Json)}, OnlyNamed ["page", "limit"] entries →
      (∀ y, entries.lookup "page" = some y → Conforms .count y) →
      (∀ y, entries.lookup "limit" = some y → Conforms .count y) → Conforms .pagination (obj entries) := by
    intro entries named page limit
    refine (conforms_obj_iff rfl List.mem_cons_self).mpr ⟨named, ?_, List.forall_mem_nil _⟩
    intro e inside y found
    change e ∈ [("page", .count), ("limit", .count)] at inside
    rcases List.mem_pair.mp inside with rfl | rfl
    · exact page y found
    · exact limit y found
  cases described with
  | noEntries =>
    refine ⟨?_, rfl⟩
    rintro _ ⟨rfl⟩
    exact shaped (List.forall_mem_nil _) nofun nofun
  | optional described =>
    cases described with
    | absent => exact ⟨nofun, rfl⟩
    | null => exact ⟨fun _ given => Option.some.inj given ▸ conforms_null (.inr rfl), rfl⟩
    | @present x p described =>
      cases x with
      | obj entries =>
        obtain ⟨named, notEmpty, number, limit⟩ := described
        refine ⟨?_, ?_⟩
        · rintro _ ⟨rfl⟩
          refine shaped named (fun y found => ?_) (fun y found => ?_)
          · exact Count.conforms (found ▸ number)
          · exact Count.conforms (found ▸ limit)
        · have given : (obj entries).isVacant = false := by
            rw [isVacant, List.isEmpty_eq_false_iff]
            exact notEmpty
          have read : PageRequest.ofJson (obj entries) = .ok p := by
            rw [PageRequest.ofJson]
            refine bind_eq_ok_iff.mpr ⟨entries, rfl, ?_⟩
            rw [number.integerOr_eq, limit.integerOr_eq]
            rfl
          rw [Option.getD_some, optional, given, read]
          rfl
      | _ => exact described.elim

/-! ### Requests -/

theorem exists_term {v : Option Json} (conforms : ∀ x, v = some x → Conforms .optionalText x) :
    ∃ term, Term v term := by
  cases v with
  | none => exact ⟨_, .absent⟩
  | some x =>
    rcases conforms_optionalText_iff.mp (conforms x rfl) with rfl | ⟨s, rfl⟩
    · exact ⟨_, .null⟩
    · exact ⟨_, .present s⟩

theorem Term.conforms {x term : Json} (given : Term (some x) term) : Conforms .optionalText x := by
  cases given with
  | null => exact conforms_optionalText_iff.mpr (.inl rfl)
  | present s => exact conforms_optionalText_iff.mpr (.inr ⟨s, rfl⟩)

theorem Term.getD_eq {v : Option Json} {term : Json} (given : Term v term) : v.getD .null = term := by
  cases given <;> rfl

theorem exists_request {x : Json} (shallow : Subject.request.levels x ≤ 10) (conforms : Conforms .request x) :
    ∃ r, x.DescribesRequest r := by
  obtain ⟨entries, rfl⟩ := exists_entries_of_conforms rfl conforms
  obtain ⟨named, shaped, complete⟩ := (conforms_obj_iff rfl List.mem_cons_self).mp conforms
  have entity : ("entity", Shape.name) ∈ Shape.request.entries := by decide
  have filters : ("filters", Shape.group) ∈ Shape.request.entries := by decide
  obtain ⟨_, isEntity, name⟩ := exists_required shaped complete entity (by decide)
  obtain ⟨entity, notEmpty, rfl⟩ := conforms_name_iff.mp name
  obtain ⟨x, isFilters, group⟩ := exists_required shaped complete filters (by decide)
  have few : x.levels ≤ 10 := by rwa [Subject.levels, getOrNull, isFilters] at shallow
  obtain ⟨filters, described⟩ := exists_group few group
  obtain ⟨search, term⟩ := exists_term (shaped ("search", .optionalText) (by decide))
  obtain ⟨sort, key⟩ := exists_sort (shaped ("sort", .sort) (by decide))
  obtain ⟨pagination, page⟩ := exists_page (shaped ("pagination", .pagination) (by decide))
  exact ⟨⟨entity, filters, search, sort, pagination⟩, named, isEntity, notEmpty, ⟨x, isFilters, described⟩, term, key,
    page⟩

theorem DescribesGroup.isVacant_eq_false {n : Nat} {x : Json} {g : Group} (described : DescribesGroup n x g) :
    x.isVacant = false := by
  cases n with
  | zero => exact described.elim
  | succ n =>
    cases x with
    | obj entries =>
      cases described with
      | node _ operator _ _ => exact isVacant_obj_of_lookup operator
    | _ => exact described.elim

theorem of_describesRequest {x : Json} {r : Request} (described : x.DescribesRequest r) :
    Subject.request.levels x ≤ 10 ∧ Conforms .request x ∧ Request.ofJson x = .ok r := by
  cases x with
  | obj entries =>
    obtain ⟨named, entity, notEmpty, ⟨x, isFilters, group⟩, term, key, page⟩ := described
    obtain ⟨shallow, shaped, read⟩ := of_describesGroup group
    obtain ⟨sorts, readSort⟩ := of_describesSort key
    obtain ⟨pages, readPage⟩ := of_describesPage page
    refine ⟨?_, ?_, ?_⟩
    · rwa [Subject.levels, getOrNull, isFilters]
    · refine (conforms_obj_iff rfl List.mem_cons_self).mpr ⟨named, ?_, ?_⟩
      · intro e inside y found
        change e ∈ [("entity", .name), ("filters", .group), ("search", .optionalText), ("sort", .sort),
          ("pagination", .pagination)] at inside
        simp only [List.mem_cons, List.not_mem_nil, or_false] at inside
        rcases inside with rfl | rfl | rfl | rfl | rfl
        · cases entity.symm.trans found
          exact conforms_name_iff.mpr ⟨r.entity, notEmpty, rfl⟩
        · cases isFilters.symm.trans found
          exact shaped
        · rw [found] at term
          exact term.conforms
        · exact sorts y found
        · exact pages y found
      · rw [List.forall_mem_singleton, meets_required_iff, List.forall_mem_cons, List.forall_mem_singleton]
        exact ⟨⟨_, entity⟩, _, isFilters⟩
    · have filters : getOrNull "filters" entries = x := by rw [getOrNull, isFilters, Option.getD_some]
      have search : getOrNull "search" entries = r.search := term.getD_eq
      rw [Request.ofJson]
      refine bind_eq_ok_iff.mpr ⟨entries, rfl, ?_⟩
      simp only [filters, group.isVacant_eq_false, read]
      rw [textOr_of_lookup "" entity, search, getOrNull, readSort, getOrNull, readPage]
      rfl
  | _ => exact described.elim

end Json

/-! ### Parsing -/

namespace Subject

theorem admit_eq_ok_iff {subject : Subject} {x : Json} {u : Unit} :
    subject.admit true x = .ok u ↔ subject.levels x ≤ 10 ∧ Conforms subject.shape x := by
  have deep : isTooDeep defaultDepth subject x = true ↔ ¬ subject.levels x ≤ 10 := by
    rw [isTooDeep, decide_eq_true_eq, defaultDepth]
    omega
  unfold Subject.admit
  rw [Conforms, ← report_eq_nil_iff]
  by_cases tooDeep : isTooDeep defaultDepth subject x = true
  · rw [if_pos tooDeep]
    refine iff_of_false (fun taken => ?_) fun both => deep.mp tooDeep both.1
    cases taken
  · rw [if_neg tooDeep, if_pos rfl]
    have shallow := not_not.mp (mt deep.mpr tooDeep)
    rw [and_iff_right shallow]
    cases report subject.shape x with
    | nil => exact iff_of_true rfl rfl
    | cons problem others =>
      refine iff_of_false (fun taken => ?_) (List.cons_ne_nil _ _)
      cases taken

/-- What is not taken is refused in so many words, for its depth or for its shape. -/
theorem exists_rejection_of_admit_error {subject : Subject} {x : Json} {fault : ParseFault}
    (failed : subject.admit true x = .error fault) :
    ∃ details, details ≠ [] ∧ fault.rejection? = some ⟨subject.malformedMessage, details⟩ := by
  unfold Subject.admit at failed
  split at failed
  · cases failed
    exact ⟨[tooDeepMessage defaultDepth], List.cons_ne_nil _ _, rfl⟩
  · rw [if_pos rfl] at failed
    split at failed
    · cases failed
    · rename_i problems some
      cases failed
      exact ⟨_, mt List.map_eq_nil_iff.mp some, rfl⟩

end Subject

namespace Request

theorem parse_value (x : Json) :
    parse true (.value x) = Subject.request.admit true x >>= fun _ => (ofJson x).mapError .content := rfl

/-- A value is taken for a request exactly if it describes it. -/
theorem parse_value_eq_ok_iff {x : Json} {r : Request} : parse true (.value x) = .ok r ↔ x.DescribesRequest r := by
  rw [parse_value, bind_eq_ok_iff]
  simp only [mapError_eq_ok_iff, Subject.admit_eq_ok_iff]
  constructor
  · rintro ⟨_, ⟨shallow, conforms⟩, read⟩
    obtain ⟨s, described⟩ := Json.exists_request shallow conforms
    obtain ⟨-, -, readAgain⟩ := Json.of_describesRequest described
    cases read.symm.trans readAgain
    exact described
  · intro described
    obtain ⟨shallow, conforms, read⟩ := Json.of_describesRequest described
    exact ⟨(), ⟨shallow, conforms⟩, read⟩

/-- Nothing fails after a value is admitted: it is refused before that, or taken. -/
theorem exists_rejection_of_parse_value_error {x : Json} {fault : ParseFault}
    (failed : parse true (.value x) = .error fault) :
    ∃ details, details ≠ [] ∧ fault.rejection? = some ⟨Subject.request.malformedMessage, details⟩ := by
  rw [parse_value, bind_eq_error_iff] at failed
  rcases failed with refused | ⟨_, admitted, unread⟩
  · exact Subject.exists_rejection_of_admit_error refused
  · obtain ⟨shallow, conforms⟩ := Subject.admit_eq_ok_iff.mp admitted
    obtain ⟨r, described⟩ := Json.exists_request shallow conforms
    obtain ⟨-, -, read⟩ := Json.of_describesRequest described
    obtain ⟨fault, failed, -⟩ := mapError_eq_error_iff.mp unread
    exact absurd (read.symm.trans failed) nofun

/-- A value other than a text is taken for a request exactly if it describes the request;
    if it describes none, it is refused as malformed, with reasons. -/
theorem parse_iff_describes (x : Json) (value : ∀ s, x ≠ .str s) :
    (∀ r, parse true (.ofJson x) = .ok r ↔ x.DescribesRequest r) ∧
      ((¬ ∃ r, x.DescribesRequest r) → ∃ fault refusal, parse true (.ofJson x) = .error fault ∧
        fault.rejection? = some refusal ∧ refusal.message = "Malformed filter query" ∧ refusal.details ≠ []) := by
  have given : Payload.ofJson x = .value x := by
    cases x with
    | str s => exact absurd rfl (value s)
    | _ => rfl
  rw [given]
  refine ⟨fun r => parse_value_eq_ok_iff, fun nothing => ?_⟩
  cases outcome : parse true (.value x) with
  | ok r => exact absurd ⟨r, parse_value_eq_ok_iff.mp outcome⟩ nothing
  | error fault =>
    obtain ⟨details, reasons, told⟩ := exists_rejection_of_parse_value_error outcome
    exact ⟨fault, _, rfl, told, rfl, reasons⟩

/-- A request for a page of deals: of those in one of two states, or else of all. -/
def dealsOnPage (page : Json) : Json :=
  .obj [("entity", .str "deals"),
    ("filters", .obj [("operator", .str "OR"),
      ("conditions", .arr [.obj [("field", .str "status"), ("operator", .str "in"),
        ("values", .arr [.str "won", .str "open"])]]),
      ("groups", .arr [.obj [("operator", .str "AND")]])]),
    ("search", .null), ("sort", .obj [("field", .str "createdAt")]), ("pagination", .obj [("page", page)])]

/-- The second page may be asked for by `2.0`; no page is asked for by a truth value. -/
theorem parse_iff_describes_page :
    (dealsOnPage (.float ⟨0x4000000000000000⟩)).DescribesRequest
        ⟨"deals", .node "OR" [.condition ⟨"status", "in", .null, .arr [.str "won", .str "open"]⟩] [.node "AND" [] []],
          .null, some ⟨"createdAt", "asc"⟩, some ⟨2, 0⟩⟩ ∧
      ∃ fault refusal, parse true (.ofJson (dealsOnPage (.bool true))) = .error fault ∧
        fault.rejection? = some refusal ∧ refusal.message = "Malformed filter query" ∧ refusal.details ≠ [] := by
  obtain ⟨taken, -⟩ := parse_iff_describes (dealsOnPage (.float ⟨0x4000000000000000⟩)) nofun
  obtain ⟨takenForNone, refused⟩ := parse_iff_describes (dealsOnPage (.bool true)) nofun
  refine ⟨(taken _).mp rfl, refused ?_⟩
  rintro ⟨r, described⟩
  exact absurd ((takenForNone r).mpr described) nofun

end Request

end Criteria
