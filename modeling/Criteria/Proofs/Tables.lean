import Criteria.Matrix.Document
import Criteria.Proofs.Accepted
import Criteria.Proofs.Outcome

/-!
Tables that matrices are built from. A matrix can be built of tables of names exactly if
all names are those of operators; the first field that lists another one is refused with
all of its names that are unknown. What a field then allows is what the table lists for
it, so the tables that a matrix gives out list the same, and a matrix that is built of
them cannot be told from the first one (`Matrix.ofTables_answers`).
-/
namespace Criteria

variable {ε ν α β : Type}

/-! ### Rows -/

/-- Each row of a table is put through a step that may fail: the names stay, and the contents are put
    in the place of each other. -/
theorem mapM_rows_eq_ok_iff {f : ν → α → Except ε β} {rows : List (ν × α)} {made : List (ν × β)} :
    (rows.mapM fun row => do return (row.1, ← f row.1 row.2)) = .ok made ↔
      List.Forall₂ (fun row result => result.1 = row.1 ∧ f row.1 row.2 = .ok result.2) rows made := by
  rw [mapM_eq_ok_iff]
  refine ⟨fun related => related.imp ?_, fun related => related.imp ?_⟩
  · intro row result isMade
    obtain ⟨x, found, same⟩ := bind_eq_ok_iff.mp isMade
    obtain rfl := pure_eq_ok_iff.mp same
    exact ⟨rfl, found⟩
  · rintro row ⟨name, x⟩ ⟨rfl, found⟩
    exact bind_eq_ok_iff.mpr ⟨x, found, rfl⟩

theorem mapM_rows_eq_error_iff {f : ν → α → Except ε β} {rows : List (ν × α)} {e : ε} :
    (rows.mapM fun row => do return (row.1, ← f row.1 row.2)) = .error e ↔
      ∃ before name x after, rows = before ++ (name, x) :: after ∧ f name x = .error e ∧
        ∀ row ∈ before, ∃ y, f row.1 row.2 = .ok y := by
  have step (row : ν × α) : (do return (row.1, ← f row.1 row.2)) = Except.error e ↔ f row.1 row.2 = .error e := by
    rw [bind_eq_error_iff]
    simp [pure_ne_error]
  have sound (row : ν × α) : (∃ y, (do return (row.1, ← f row.1 row.2)) = (.ok y : Except ε (ν × β))) ↔
      ∃ y, f row.1 row.2 = .ok y := by
    rw [exists_bind_eq_ok_iff]
    simp [exists_pure_eq_ok]
  rw [mapM_eq_error_iff]
  simp only [step, sound, Prod.exists]

theorem exists_mapM_rows_iff {f : ν → α → Except ε β} {rows : List (ν × α)} :
    (∃ made, (rows.mapM fun row => do return (row.1, ← f row.1 row.2)) = .ok made) ↔
      ∀ row ∈ rows, ∃ y, f row.1 row.2 = .ok y := by
  simp only [mapM_rows_eq_ok_iff]
  constructor
  · rintro ⟨made, related⟩
    exact forall_mem_of_forall₂ related fun row result isMade => ⟨result.2, isMade.2⟩
  · intro each
    refine exists_forall₂ fun row inside => ?_
    obtain ⟨y, made⟩ := each row inside
    exact ⟨(row.1, y), rfl, made⟩

/-- The row of a name is found in both tables or in neither. -/
theorem lookup_of_mapM_rows [BEq ν] [LawfulBEq ν] {f : ν → α → Except ε β} {rows : List (ν × α)} {made : List (ν × β)}
    (built : (rows.mapM fun row => do return (row.1, ← f row.1 row.2)) = .ok made) (name : ν) :
    (rows.lookup name = none ∧ made.lookup name = none) ∨
      ∃ x y, rows.lookup name = some x ∧ made.lookup name = some y ∧ f name x = .ok y := by
  induction mapM_rows_eq_ok_iff.mp built with
  | nil => exact .inl ⟨rfl, rfl⟩
  | @cons row result rows made head tail ih =>
    obtain ⟨k, x⟩ := row
    obtain ⟨k', y⟩ := result
    obtain ⟨rfl, here⟩ := head
    simp only [List.lookup_cons]
    by_cases same : name = k'
    · rw [beq_iff_eq.mpr same]
      exact .inr ⟨x, y, rfl, rfl, same ▸ here⟩
    · rw [beq_eq_false_iff_ne.mpr same]
      exact ih (mapM_rows_eq_ok_iff.mpr tail)

theorem mem_of_lookup [BEq ν] [LawfulBEq ν] {rows : List (ν × α)} {name : ν} {x : α}
    (found : rows.lookup name = some x) : (name, x) ∈ rows := by
  obtain ⟨before, after, rfl, -⟩ := List.lookup_eq_some_iff.mp found
  simp

theorem lookup_map_snd [BEq ν] (g : α → β) (rows : List (ν × α)) (name : ν) :
    (rows.map fun row => (row.1, g row.2)).lookup name = (rows.lookup name).map g := by
  induction rows with
  | nil => rfl
  | cons row rest ih =>
    rw [List.map_cons, List.lookup_cons, List.lookup_cons, ih]
    cases name == row.1 <;> rfl

/-! ### Lists of names -/

/-- Names that are all of operators. -/
def AllKnown (names : List String) : Prop := ∀ name ∈ names, ∃ op : Operator, op.name = name

/-- Names as the documents that stand in a list of operators. -/
def nameDocuments (names : List String) : List Document := names.map fun name => .scalar (.text name)

/-- The operators that some names are the names of, in the order of their names. -/
def operatorsNamed (names : List String) : List Operator := Operator.all.filter fun op => names.contains op.name

/-- The names of a list that are not of operators, in order and each once. -/
def unknownNames (names : List String) : List String :=
  Text.sorted (names.filter fun name => (Operator.ofName? name).isNone)

theorem Operator.ofName?_eq_none_iff {name : String} : ofName? name = none ↔ ∀ op : Operator, op.name ≠ name := by
  rw [Option.eq_none_iff_forall_ne_some]
  simp only [ne_eq, ofName?_eq_some_iff]

theorem filter_unknown_eq_nil_iff {names : List String} :
    (names.filter fun name => (Operator.ofName? name).isNone) = [] ↔ AllKnown names := by
  simp only [List.filter_eq_nil_iff, Option.isNone_iff_eq_none, Operator.ofName?_eq_none_iff, AllKnown, not_forall,
    not_not, ne_eq]

theorem nodup_eraseDups (names : List String) : names.eraseDups.Nodup := by
  induction h : names.length using Nat.strongRecOn generalizing names with
  | ind n ih =>
    cases names with
    | nil => exact List.nodup_nil
    | cons first rest =>
      rw [List.eraseDups_cons, List.nodup_cons]
      have shorter : (rest.filter fun name => !name == first).length < n := by
        have := List.length_filter_le (fun name => !name == first) rest
        simp only [List.length_cons] at h
        omega
      refine ⟨?_, ih _ shorter _ rfl⟩
      simp [List.mem_eraseDups]

theorem Text.mem_sorted {name : String} {names : List String} : name ∈ sorted names ↔ name ∈ names := by
  rw [sorted, (sortBy_perm id _).mem_iff, List.mem_eraseDups]

theorem Text.pairwise_sorted (names : List String) : (sorted names).Pairwise (· < ·) := by
  have inOrder := pairwise_sortBy id names.eraseDups
  have distinct : (sorted names).Nodup := (sortBy_perm id _).nodup_iff.mpr (nodup_eraseDups names)
  refine inOrder.imp₂ ?_ distinct
  intro first later atMost other
  exact Std.lt_of_le_of_ne atMost other

theorem mem_unknownNames_iff {name : String} {names : List String} :
    name ∈ unknownNames names ↔ name ∈ names ∧ ∀ op : Operator, op.name ≠ name := by
  rw [unknownNames, Text.mem_sorted, List.mem_filter, Option.isNone_iff_eq_none, Operator.ofName?_eq_none_iff]

theorem mem_operatorsNamed_iff {op : Operator} {names : List String} : op ∈ operatorsNamed names ↔ op.name ∈ names := by
  simp [operatorsNamed, Operator.mem_all]

/-- Operators that are in the order of their names are those that their names are the names of. -/
theorem operatorsNamed_names (names : List String) :
    operatorsNamed ((operatorsNamed names).map (·.name)) = operatorsNamed names := by
  refine List.filter_congr fun op _ => ?_
  rw [Bool.eq_iff_iff, List.contains_iff_mem, List.contains_iff_mem, List.mem_map, ← mem_operatorsNamed_iff]
  constructor
  · rintro ⟨other, listed, same⟩
    exact Operator.name_inj same ▸ listed
  · intro listed
    exact ⟨op, listed, rfl⟩

theorem allKnown_names (ops : List Operator) : AllKnown (ops.map (·.name)) := by
  intro name listed
  obtain ⟨op, -, named⟩ := List.mem_map.mp listed
  exact ⟨op, named⟩

namespace Matrix

variable {entity : Scalar} {field : String} {names : List String}

theorem operatorSet_nameDocuments (entity : Scalar) (field : String) (names : List String) :
    operatorSet entity field (nameDocuments names) =
      if (names.filter fun name => (Operator.ofName? name).isNone).isEmpty then .ok (operatorsNamed names)
      else .error (.unknownOperators entity field (unknownNames names)) := by
  have noOther : (nameDocuments names).find? (·.text?.isNone) = none := by
    simp [nameDocuments, Document.text?]
  have texts : (nameDocuments names).filterMap (·.text?) = names := by
    simp [nameDocuments, List.filterMap_map, Document.text?]
  simp only [operatorSet, noOther, texts]
  rfl

theorem operatorSet_of_allKnown (known : AllKnown names) :
    operatorSet entity field (nameDocuments names) = .ok (operatorsNamed names) := by
  rw [operatorSet_nameDocuments, filter_unknown_eq_nil_iff.mpr known]
  rfl

theorem operatorSet_of_not_allKnown (unknown : ¬ AllKnown names) :
    operatorSet entity field (nameDocuments names) = .error (.unknownOperators entity field (unknownNames names)) := by
  rw [operatorSet_nameDocuments, if_neg]
  rw [List.isEmpty_iff, filter_unknown_eq_nil_iff]
  exact unknown

theorem operatorSet_eq_ok_iff {ops : List Operator} :
    operatorSet entity field (nameDocuments names) = .ok ops ↔ AllKnown names ∧ ops = operatorsNamed names := by
  by_cases known : AllKnown names
  · simp [operatorSet_of_allKnown known, known, eq_comm]
  · simp [operatorSet_of_not_allKnown known, known]

theorem operatorSet_eq_error_iff {fault : MatrixFault} : operatorSet entity field (nameDocuments names) = .error fault ↔
    ¬ AllKnown names ∧ fault = .unknownOperators entity field (unknownNames names) := by
  by_cases known : AllKnown names
  · simp [operatorSet_of_allKnown known, known]
  · simp [operatorSet_of_not_allKnown known, known, eq_comm]

/-! ### Tables of lists -/

/-- Members of a list that are all names of operators. -/
def OnlyOperators (members : List Document) : Prop := ∃ names, AllKnown names ∧ members = nameDocuments names

/-- The first field in order of which the content is not as it should be. -/
def FirstWithout {α : Type} (P : α → Prop) (t : EntityTable (Table α)) (entity : Scalar) (field : String) (x : α) :
    Prop :=
  ∃ before columns others after, t = before ++ (entity, columns ++ (field, x) :: others) :: after ∧ ¬ P x ∧
    (∀ column ∈ columns, P column.2) ∧ ∀ row ∈ before, ∀ column ∈ row.2, P column.2

theorem names_or_notName (members : List Document) :
    (∃ names, members = nameDocuments names) ∨ ∃ x ∈ members, members.find? (·.text?.isNone) = some x := by
  cases found : members.find? (·.text?.isNone) with
  | some x => exact .inr ⟨x, List.mem_of_find?_eq_some found, rfl⟩
  | none =>
    left
    induction members with
    | nil => exact ⟨[], rfl⟩
    | cons first rest ih =>
      rw [List.find?_eq_none, List.forall_mem_cons, ← List.find?_eq_none] at found
      obtain ⟨names, rfl⟩ := ih found.2
      cases first with
      | scalar x =>
        cases x with
        | text name => exact ⟨name :: names, rfl⟩
        | _ => exact absurd rfl found.1
      | _ => exact absurd rfl found.1

theorem exists_operatorSet_iff {members : List Document} :
    (∃ ops, operatorSet entity field members = .ok ops) ↔ OnlyOperators members := by
  constructor
  · rintro ⟨ops, made⟩
    rcases names_or_notName members with ⟨names, rfl⟩ | ⟨x, -, found⟩
    · exact ⟨names, (operatorSet_eq_ok_iff.mp made).1, rfl⟩
    · simp [operatorSet, found] at made
  · rintro ⟨names, known, rfl⟩
    exact ⟨_, operatorSet_of_allKnown known⟩

theorem lookup_getD_eq_some_iff {α : Type} {t : EntityTable (Table α)} {x : α} :
    ((t.lookup entity).getD []).lookup field = some x ↔
      ∃ columns, t.lookup entity = some columns ∧ columns.lookup field = some x := by
  cases t.lookup entity with
  | none => simp
  | some columns => simp

theorem operatorTable_eq_mapM (entity : Scalar) (columns : Table (List Document)) :
    operatorTable entity columns =
      columns.mapM fun column => do return (column.1, ← operatorSet entity column.1 column.2) := by
  induction columns with
  | nil => rfl
  | cons column rest ih => simp [operatorTable, ih]

theorem operatorTables_eq_mapM (t : EntityTable (Table (List Document))) :
    operatorTables t = t.mapM fun row => do return (row.1, ← operatorTable row.1 row.2) := by
  induction t with
  | nil => rfl
  | cons row rest ih => simp [operatorTables, ih]

theorem exists_operatorTable_iff {columns : Table (List Document)} :
    (∃ made, operatorTable entity columns = .ok made) ↔ ∀ column ∈ columns, OnlyOperators column.2 := by
  rw [operatorTable_eq_mapM, exists_mapM_rows_iff]
  simp only [exists_operatorSet_iff]

theorem exists_operatorTables_iff {t : EntityTable (Table (List Document))} :
    (∃ made, operatorTables t = .ok made) ↔ ∀ row ∈ t, ∀ column ∈ row.2, OnlyOperators column.2 := by
  rw [operatorTables_eq_mapM, exists_mapM_rows_iff]
  simp only [exists_operatorTable_iff]

theorem operatorTable_eq_error_iff {columns : Table (List Document)} {fault : MatrixFault} :
    operatorTable entity columns = .error fault ↔ ∃ before field members after,
      columns = before ++ (field, members) :: after ∧ operatorSet entity field members = .error fault ∧
        ∀ column ∈ before, OnlyOperators column.2 := by
  rw [operatorTable_eq_mapM, mapM_rows_eq_error_iff]
  simp only [exists_operatorSet_iff]

/-- Tables are refused as the list of the first field is that does not hold operators only. -/
theorem operatorTables_eq_error_iff {t : EntityTable (Table (List Document))} {fault : MatrixFault} :
    operatorTables t = .error fault ↔ ∃ entity field members, FirstWithout OnlyOperators t entity field members ∧
      operatorSet entity field members = .error fault := by
  rw [operatorTables_eq_mapM, mapM_rows_eq_error_iff]
  simp only [operatorTable_eq_error_iff, exists_operatorTable_iff]
  constructor
  · rintro ⟨before, entity, _, after, rfl, ⟨columns, field, members, others, rfl, failed, sound⟩, earlier⟩
    have other : ¬ OnlyOperators members := by
      intro only
      have made : ∃ ops, operatorSet entity field members = .ok ops := exists_operatorSet_iff.mpr only
      rw [failed] at made
      obtain ⟨ops, impossible⟩ := made
      cases impossible
    exact ⟨entity, field, members, ⟨before, columns, others, after, rfl, other, sound, earlier⟩, failed⟩
  · rintro ⟨entity, field, members, ⟨before, columns, others, after, rfl, -, sound, earlier⟩, failed⟩
    exact ⟨before, entity, _, after, rfl, ⟨columns, field, members, others, rfl, failed, sound⟩, earlier⟩

/-! ### What a matrix lists -/

variable {m : Matrix} {t : EntityTable (Table (List Document))}

/-- The operators of a field are those that its list in the tables names. -/
theorem operators?_eq_some_iff (built : operatorTables t = .ok m.fields) {ops : List Operator} :
    m.operators? entity field = some ops ↔ ∃ columns members, t.lookup entity = some columns ∧
      columns.lookup field = some members ∧ operatorSet entity field members = .ok ops := by
  rw [operatorTables_eq_mapM] at built
  rcases lookup_of_mapM_rows built entity with ⟨none, none'⟩ | ⟨columns, made, found, found', table⟩
  · simp [operators?, fieldsOf, none, none']
  rw [operatorTable_eq_mapM] at table
  rcases lookup_of_mapM_rows table field with ⟨none, none'⟩ | ⟨members, ops', listed, listed', set⟩
  · simp [operators?, fieldsOf, found, found', none, none']
  · simp [operators?, fieldsOf, found, found', listed, listed', set]

/-- A field allows what its list in the tables names. -/
theorem isAllowed_iff_listed (built : operatorTables t = .ok m.fields) {name : String} :
    m.isAllowed entity field name = true ↔ ∃ columns members, t.lookup entity = some columns ∧
      columns.lookup field = some members ∧ .scalar (.text name) ∈ members := by
  have each := exists_operatorTables_iff.mp ⟨_, built⟩
  rw [isAllowed_iff]
  simp only [operators?_eq_some_iff built]
  constructor
  · rintro ⟨ops, op, ⟨columns, members, found, listed, set⟩, inside, rfl⟩
    obtain ⟨names, known, rfl⟩ := exists_operatorSet_iff.mp ⟨ops, set⟩
    obtain ⟨-, rfl⟩ := operatorSet_eq_ok_iff.mp set
    refine ⟨columns, _, found, listed, ?_⟩
    simpa [nameDocuments] using mem_operatorsNamed_iff.mp inside
  · rintro ⟨columns, members, found, listed, inside⟩
    obtain ⟨names, known, rfl⟩ := each (entity, columns) (mem_of_lookup found) (field, members) (mem_of_lookup listed)
    have named : name ∈ names := by simpa [nameDocuments] using inside
    obtain ⟨op, rfl⟩ := known name named
    exact ⟨operatorsNamed names, op, ⟨columns, _, found, listed, operatorSet_of_allKnown known⟩,
      mem_operatorsNamed_iff.mpr named, rfl⟩

/-! ### Tables of names -/

/-- Tables of names as those that a matrix is built from. -/
def asDocuments (t : EntityTable (Table (List String))) : EntityTable (Table (List Document)) :=
  t.map fun row => (row.1, row.2.map fun column => (column.1, nameDocuments column.2))

/-- A table lists a name for a field of an entity. -/
def Lists (t : EntityTable (Table (List String))) (entity : Scalar) (field name : String) : Prop :=
  ∃ columns names, t.lookup entity = some columns ∧ columns.lookup field = some names ∧ name ∈ names

theorem nameDocuments_injective {names others : List String} (same : nameDocuments names = nameDocuments others) :
    names = others :=
  List.map_injective_iff.mpr (fun _ _ equal => Scalar.text.inj (Document.scalar.inj equal)) same

theorem onlyOperators_nameDocuments_iff : OnlyOperators (nameDocuments names) ↔ AllKnown names := by
  constructor
  · rintro ⟨others, known, same⟩
    exact nameDocuments_injective same ▸ known
  · intro known
    exact ⟨names, known, rfl⟩

section Names

variable {t : EntityTable (Table (List String))}

theorem forall_asDocuments_iff : (∀ row ∈ asDocuments t, ∀ column ∈ row.2, OnlyOperators column.2) ↔
    ∀ row ∈ t, ∀ column ∈ row.2, AllKnown column.2 := by
  simp only [asDocuments, List.forall_mem_map, onlyOperators_nameDocuments_iff]

/-- The first field of the documents that is not as it should be is the first one of the names. -/
theorem firstWithout_asDocuments_iff {members : List Document} :
    FirstWithout OnlyOperators (asDocuments t) entity field members ↔
      ∃ names, members = nameDocuments names ∧ FirstWithout AllKnown t entity field names := by
  constructor
  · rintro ⟨before, columns, others, after, table, unknown, sound, earlier⟩
    obtain ⟨before, rest, rfl, rfl, later⟩ := List.map_eq_append_iff.mp table
    obtain ⟨⟨entity, _⟩, after, rfl, here, rfl⟩ := List.map_eq_cons_iff.mp later
    obtain ⟨rfl, documents⟩ := Prod.mk.inj here
    obtain ⟨columns, _, rfl, rfl, rest⟩ := List.map_eq_append_iff.mp documents
    obtain ⟨⟨field, names⟩, others, rfl, column, rfl⟩ := List.map_eq_cons_iff.mp rest
    obtain ⟨rfl, rfl⟩ := Prod.mk.inj column
    rw [onlyOperators_nameDocuments_iff] at unknown
    refine ⟨names, rfl, before, columns, others, after, rfl, unknown, ?_, forall_asDocuments_iff.mp earlier⟩
    simpa only [List.forall_mem_map, onlyOperators_nameDocuments_iff] using sound
  · rintro ⟨names, rfl, before, columns, others, after, rfl, unknown, sound, earlier⟩
    refine ⟨asDocuments before, columns.map fun column => (column.1, nameDocuments column.2),
      others.map fun column => (column.1, nameDocuments column.2), asDocuments after, by simp [asDocuments], ?_, ?_,
      forall_asDocuments_iff.mpr earlier⟩
    · rwa [onlyOperators_nameDocuments_iff]
    · simpa only [List.forall_mem_map, onlyOperators_nameDocuments_iff] using sound

/-- Tables of names are those of a matrix exactly if all names are those of operators. -/
theorem exists_ofTables_iff {search : EntityTable (List String)} {metadata : EntityTable (Table (List String))}
    {softDeleteField : String} : (∃ m, ofTables (asDocuments t) search metadata softDeleteField = .ok m) ↔
      ∀ row ∈ t, ∀ column ∈ row.2, AllKnown column.2 := by
  rw [ofTables, exists_bind_eq_ok_iff]
  simp only [exists_pure_eq_ok, and_true, exists_operatorTables_iff, forall_asDocuments_iff]

/-- Tables of names are refused for the first field that lists one that is unknown. -/
theorem ofTables_eq_error_iff {search : EntityTable (List String)} {metadata : EntityTable (Table (List String))}
    {softDeleteField : String} {fault : MatrixFault} :
    ofTables (asDocuments t) search metadata softDeleteField = .error fault ↔
      ∃ entity field names, FirstWithout AllKnown t entity field names ∧
        fault = .unknownOperators entity field (unknownNames names) := by
  simp only [ofTables, bind_eq_error_iff, pure_ne_error, and_false, exists_false, or_false,
    operatorTables_eq_error_iff, firstWithout_asDocuments_iff]
  constructor
  · rintro ⟨entity, field, _, ⟨names, rfl, first⟩, failed⟩
    exact ⟨entity, field, names, first, (operatorSet_eq_error_iff.mp failed).2⟩
  · rintro ⟨entity, field, names, first, rfl⟩
    obtain ⟨-, -, -, -, -, unknown, -⟩ := id first
    exact ⟨entity, field, _, ⟨names, rfl, first⟩, operatorSet_eq_error_iff.mpr ⟨unknown, rfl⟩⟩

end Names

/-! ### Tables that matrices give out -/

theorem lookup_fieldNames (m : Matrix) (entity : Scalar) (field : String) :
    (m.fieldNames entity).lookup field = (m.operators? entity field).map fun ops => ops.map (·.name) :=
  lookup_map_snd (fun ops : List Operator => ops.map Operator.name) (m.fieldsOf entity) field

/-- What a matrix gives out for an entity lists what the entity's fields allow. -/
theorem lists_config_iff {name : String} :
    Lists (m.config (some entity)) entity field name ↔ m.isAllowed entity field name = true := by
  have own : (m.config (some entity)).lookup entity = some (m.fieldNames entity) := List.lookup_cons_self
  simp only [isAllowed_iff, Lists, own, Option.some.injEq]
  constructor
  · rintro ⟨_, names, rfl, found, inside⟩
    rw [lookup_fieldNames, Option.map_eq_some_iff] at found
    obtain ⟨ops, allowed, rfl⟩ := found
    obtain ⟨op, listed, named⟩ := List.mem_map.mp inside
    exact ⟨ops, op, allowed, listed, named⟩
  · rintro ⟨ops, op, allowed, listed, named⟩
    refine ⟨m.fieldNames entity, ops.map (·.name), rfl, ?_, List.mem_map.mpr ⟨op, listed, named⟩⟩
    rw [lookup_fieldNames, allowed, Option.map_some]

/-- Operators are in the order of their names. -/
def InOrder (ops : List Operator) : Prop := operatorsNamed (ops.map (·.name)) = ops

theorem inOrder_of_operatorSet {members : List Document} {ops : List Operator}
    (made : operatorSet entity field members = .ok ops) : InOrder ops := by
  obtain ⟨names, -, rfl⟩ := exists_operatorSet_iff.mp ⟨ops, made⟩
  obtain ⟨-, rfl⟩ := operatorSet_eq_ok_iff.mp made
  exact operatorsNamed_names names

theorem inOrder_of_operatorTables (built : operatorTables t = .ok m.fields) :
    ∀ column ∈ m.fieldsOf entity, InOrder column.2 := by
  rw [operatorTables_eq_mapM] at built
  rcases lookup_of_mapM_rows built entity with ⟨-, none⟩ | ⟨columns, made, -, found, table⟩
  · simp [fieldsOf, none]
  · rw [operatorTable_eq_mapM] at table
    have related := mapM_rows_eq_ok_iff.mp table
    have each : ∀ column ∈ made, InOrder column.2 :=
      forall_mem_of_forall₂ related.flip fun column row isMade => inOrder_of_operatorSet isMade.2
    simpa [fieldsOf, found] using each

/-- The tables that a matrix gives out are those of its entities. -/
theorem operatorTables_config (inOrder : ∀ entity, ∀ column ∈ m.fieldsOf entity, InOrder column.2) :
    operatorTables (asDocuments (m.config none)) = .ok (m.entities.map fun entity => (entity, m.fieldsOf entity)) := by
  have columns (entity : Scalar) : operatorTable entity ((m.fieldNames entity).map fun column =>
      (column.1, nameDocuments column.2)) = .ok (m.fieldsOf entity) := by
    rw [operatorTable_eq_mapM, mapM_rows_eq_ok_iff, fieldNames, List.map_map, List.forall₂_map_left_iff,
      List.forall₂_same]
    intro column inside
    refine ⟨rfl, ?_⟩
    show operatorSet entity column.1 (nameDocuments (column.2.map (·.name))) = .ok column.2
    rw [operatorSet_of_allKnown (allKnown_names column.2), inOrder entity column inside]
  rw [operatorTables_eq_mapM, mapM_rows_eq_ok_iff, asDocuments, config, List.map_map, List.forall₂_map_left_iff,
    List.forall₂_map_right_iff, List.forall₂_same]
  intro entity _
  exact ⟨rfl, columns entity⟩

/-- A table of the entities of a matrix has the fields that they have in the matrix. -/
theorem lookup_entities (m : Matrix) (entity : Scalar) :
    ((m.entities.map fun entity => (entity, m.fieldsOf entity)).lookup entity).getD [] = m.fieldsOf entity := by
  by_cases inside : entity ∈ m.entities
  · rw [List.lookup_graph _ inside, Option.getD_some]
  · have unlisted : m.fields.lookup entity = none := by
      rw [List.lookup_eq_none_iff]
      intro row listed
      rw [bne_iff_ne]
      rintro rfl
      exact inside (List.mem_map_of_mem listed)
    have unlisted' : (m.entities.map fun entity => (entity, m.fieldsOf entity)).lookup entity = none := by
      rw [List.lookup_eq_none_iff, List.forall_mem_map]
      intro other listed
      rw [bne_iff_ne]
      rintro rfl
      exact inside listed
    rw [fieldsOf, unlisted, unlisted']

theorem isAllowed_congr {m again : Matrix} (same : ∀ entity, again.fieldsOf entity = m.fieldsOf entity)
    (entity : Scalar) (field name : String) : again.isAllowed entity field name = m.isAllowed entity field name := by
  rw [isAllowed, isAllowed, operatorsOf, operatorsOf, operators?, operators?, same entity]

theorem config_congr {m again : Matrix} (same : ∀ entity, again.fieldsOf entity = m.fieldsOf entity)
    (entities : again.entities = m.entities) (entity? : Option Scalar) : again.config entity? = m.config entity? := by
  simp only [config, fieldNames, same, entities]

/-- The matrix of the tables that another one gives out cannot be told from that one. -/
theorem ofTables_config (built : operatorTables t = .ok m.fields) (search : EntityTable (List String))
    (metadata : EntityTable (Table (List String))) (softDeleteField : String) :
    ∃ again, ofTables (asDocuments (m.config none)) search metadata softDeleteField = .ok again ∧
      (∀ entity field name, again.isAllowed entity field name = m.isAllowed entity field name) ∧
      ∀ entity?, again.config entity? = m.config entity? := by
  have inOrder (entity : Scalar) : ∀ column ∈ m.fieldsOf entity, InOrder column.2 := inOrder_of_operatorTables built
  have tables := operatorTables_config inOrder
  have same (entity : Scalar) := lookup_entities m entity
  refine ⟨⟨_, search, metadata, softDeleteField⟩, bind_eq_ok_iff.mpr ⟨_, tables, rfl⟩, isAllowed_congr same,
    config_congr same ?_⟩
  simp [entities]

/-! ### What is answered for tables of names -/

theorem isAllowed_iff_lists {t : EntityTable (Table (List String))} {name : String}
    (built : operatorTables (asDocuments t) = .ok m.fields) :
    m.isAllowed entity field name = true ↔ Lists t entity field name := by
  have columnsOf (columns : Table (List String)) : (columns.map fun column => (column.1, nameDocuments column.2)).lookup
      field = (columns.lookup field).map nameDocuments := lookup_map_snd nameDocuments columns field
  have rowOf : (asDocuments t).lookup entity = (t.lookup entity).map fun columns =>
      columns.map fun column => (column.1, nameDocuments column.2) := lookup_map_snd _ t entity
  rw [isAllowed_iff_listed built, rowOf]
  simp only [Option.map_eq_some_iff, Lists]
  constructor
  · rintro ⟨_, _, ⟨columns, found, rfl⟩, listed, inside⟩
    rw [columnsOf, Option.map_eq_some_iff] at listed
    obtain ⟨names, listed, rfl⟩ := listed
    exact ⟨columns, names, found, listed, by simpa [nameDocuments] using inside⟩
  · rintro ⟨columns, names, found, listed, inside⟩
    refine ⟨_, nameDocuments names, ⟨columns, found, rfl⟩, ?_, by simpa [nameDocuments] using inside⟩
    rw [columnsOf, listed, Option.map_some]

/-- A matrix is built of tables of names exactly if all of them are names of operators, and otherwise
    the first field in order that lists other ones is refused with these ones. A matrix that is
    built allows what the tables list and nothing else, and gives out tables that list the same; the
    matrix of all the tables that it gives out allows the same and gives out the same. -/
theorem ofTables_answers (t : EntityTable (Table (List String))) (search : EntityTable (List String))
    (metadata : EntityTable (Table (List String))) (softDeleteField : String) :
    ((∃ m, ofTables (asDocuments t) search metadata softDeleteField = .ok m) ↔
      ∀ row ∈ t, ∀ column ∈ row.2, AllKnown column.2) ∧
    (∀ fault, ofTables (asDocuments t) search metadata softDeleteField = .error fault →
      ∃ entity field names unknown, fault = .unknownOperators entity field unknown ∧
        FirstWithout AllKnown t entity field names ∧ unknown.Pairwise (· < ·) ∧
        (∀ name, name ∈ unknown ↔ name ∈ names ∧ ∀ op : Operator, op.name ≠ name) ∧
        (LoadFault.matrix fault).message? =
          some ("Unknown operators for " ++ entity.display ++ "." ++ field ++ ": " ++ ", ".intercalate unknown)) ∧
    ∀ m, ofTables (asDocuments t) search metadata softDeleteField = .ok m →
      (∀ entity field name, (m.isAllowed entity field name = true ↔ Lists t entity field name) ∧
        (m.isAllowed entity field name = true ↔ Lists (m.config (some entity)) entity field name)) ∧
      ∀ search' metadata' softDeleteField', ∃ again,
        ofTables (asDocuments (m.config none)) search' metadata' softDeleteField' = .ok again ∧
          (∀ entity field name, again.isAllowed entity field name = m.isAllowed entity field name) ∧
          ∀ entity?, again.config entity? = m.config entity? := by
  refine ⟨exists_ofTables_iff, ?_, ?_⟩
  · intro fault failed
    obtain ⟨entity, field, names, first, rfl⟩ := ofTables_eq_error_iff.mp failed
    exact ⟨entity, field, names, unknownNames names, rfl, first, Text.pairwise_sorted _,
      fun name => mem_unknownNames_iff, rfl⟩
  · intro m built
    obtain ⟨fields, tables, made⟩ := bind_eq_ok_iff.mp built
    obtain rfl := pure_eq_ok_iff.mp made
    refine ⟨?_, ofTables_config tables⟩
    intro entity field name
    exact ⟨isAllowed_iff_lists tables, lists_config_iff.symm⟩

end Matrix

end Criteria
