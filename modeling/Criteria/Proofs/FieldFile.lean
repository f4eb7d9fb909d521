import Criteria.Matrix.File
import Criteria.Proofs.EntityContent
import Mathlib.Data.List.Induction

/-!
What a field file comes to. Its document gives a matrix exactly if it is as it should be
throughout, and the matrix then has from it what it says: its entities, the operators
that its fields list, and its search fields and metadata in words (`Matrix.Carries`). Most
other documents are refused with words for what is wrong with them. Three things are met
without a check (`Matrix.Unforeseen`): a document that is no mapping, a value that cannot be
gone through where a list should stand, and a value that is no text among the names of
operators. These leave the file without a matrix and without a refusal
(`Matrix.load_answers`).
-/
namespace Criteria

open Document

/-! ### Names in words -/

namespace Matrix

/-- The row that counts for a name in words: the last one that is named so. -/
def Counts {α : Type} (rows : List (Scalar × α)) (name : String) (x : α) : Prop :=
  ∃ before key after, rows = before ++ (key, x) :: after ∧ key.display = name ∧ ∀ row ∈ after, row.1.display ≠ name

section Named

variable {α : Type} {rows : List (Scalar × α)} {name : String} {x : α}

theorem counts_append_iff {row : Scalar × α} : Counts (rows ++ [row]) name x ↔
    (row.1.display = name ∧ row.2 = x) ∨ (row.1.display ≠ name ∧ Counts rows name x) := by
  constructor
  · rintro ⟨before, key, after, split, named, last⟩
    rcases List.eq_nil_or_concat after with rfl | ⟨others, final, rfl⟩
    · obtain ⟨rfl, same⟩ := List.append_inj' split rfl
      obtain rfl := List.singleton_inj.mp same
      exact .inl ⟨named, rfl⟩
    · rw [List.concat_eq_append, ← List.cons_append, ← List.append_assoc] at split
      obtain ⟨rfl, same⟩ := List.append_inj' split rfl
      obtain rfl := List.singleton_inj.mp same
      refine .inr ⟨last row (by simp), before, key, others, rfl, named, fun earlier inside => last earlier ?_⟩
      simp [inside]
  · rintro (⟨named, rfl⟩ | ⟨other, before, key, after, rfl, named, last⟩)
    · exact ⟨rows, row.1, [], rfl, named, nofun⟩
    · refine ⟨before, key, after ++ [row], by simp, named, ?_⟩
      intro later inside
      rcases List.mem_append.mp inside with earlier | final
      · exact last later earlier
      · rwa [List.mem_singleton.mp final]

theorem named_append (rows : List (Scalar × α)) (row : Scalar × α) :
    named (rows ++ [row]) = Entries.put (· == ·) row.1.display row.2 (named rows) := by
  simp [named, Entries.ofList, List.foldl_append]

/-- A table of names in words has the content of the row that counts. -/
theorem lookup_named_iff : (named rows).lookup name = some x ↔ Counts rows name x := by
  -- Rows are put one after the other, so the last one is the one that is added to a finished table.
  induction rows using List.reverseRecOn with
  | nil => simp [named, Entries.ofList, Counts]
  | append_singleton rows row ih =>
    rw [named_append, counts_append_iff, ← ih]
    by_cases same : row.1.display = name
    · subst same
      simp [Entries.lookup_put_self]
    · simp [Entries.lookup_put_of_ne same, same]

theorem counts_map_iff {β : Type} {g : α → β} {y : β} :
    Counts (rows.map fun row => (row.1, g row.2)) name y ↔ ∃ x, Counts rows name x ∧ y = g x := by
  constructor
  · rintro ⟨before, key, after, split, named, last⟩
    obtain ⟨before, rest, rfl, rfl, later⟩ := List.map_eq_append_iff.mp split
    obtain ⟨⟨key, x⟩, after, rfl, here, rfl⟩ := List.map_eq_cons_iff.mp later
    obtain ⟨rfl, rfl⟩ := Prod.mk.inj here
    refine ⟨x, ⟨before, key, after, rfl, named, ?_⟩, rfl⟩
    simpa only [List.forall_mem_map] using last
  · rintro ⟨x, ⟨before, key, after, rfl, named, last⟩, rfl⟩
    refine ⟨before.map fun row => (row.1, g row.2), key, after.map fun row => (row.1, g row.2), by simp, named, ?_⟩
    simpa only [List.forall_mem_map] using last

end Named

/-! ### Files -/

/-- The entities of a document, each with the lists of its fields. -/
def tables (x : Document) : EntityTable (Table (List Document)) :=
  (x.part "entities").entries.map fun row => (row.1, (contentOf row.2).fields)

section Files

variable {path : String} {x : Document}

theorem ofDocument_of_not_isMappingOrNone (other : ¬ x.IsMappingOrNone) :
    ofDocument path x = .error (.matrix (.notTable x)) := by
  have stray : rows x = .error (.notTable x) := by
    cases x with
    | mapping l => exact absurd (.inr rfl) other
    | _ => rfl
  rw [ofDocument, orElse_of_not_isMappingOrNone other, stray]
  rfl

theorem ofDocument_of_no_entities (root : x.IsMappingOrNone) (none : (x.part "entities").entries = []) :
    ofDocument path x = .error (.noEntities path) := by
  rw [ofDocument, orElse_of_isMappingOrNone root]
  simp only [rows, inFile, bind, Except.bind, ← get?_eq_lookup]
  split
  · rename_i entity others found
    cases given : x.get? "entities" with
    | none =>
      rw [given] at found
      cases found
    | some y =>
      rw [part, given] at none
      rw [given] at found
      obtain rfl : y = .mapping (entity :: others) := found
      cases none
  · rfl

theorem ofDocument_of_entities (some : (x.part "entities").entries ≠ []) :
    ofDocument path x = (do
      let contents ← (x.part "entities").entries |> mapRows entityContent
      inFile (ofTables (contents.map fun row => (row.1, row.2.fields))
        (contents.map fun row => (row.1, row.2.search)) (contents.map fun row => (row.1, row.2.metadata))
        (((x.get? "softDeleteField").map Document.display).getD defaultSoftDeleteField))) := by
  have found := get?_eq_some_of_isMapping (isMapping_of_entries some)
  have root : x.IsMappingOrNone := by
    cases x with
    | mapping rows => exact .inr (isMapping_mapping rows)
    | _ => cases found
  obtain ⟨entity, others, entities⟩ := List.exists_cons_of_ne_nil some
  rw [ofDocument, orElse_of_isMappingOrNone root]
  simp only [rows, inFile, bind, Except.bind, ← get?_eq_lookup]
  rw [found, entities]
  rfl

/-- The entities of a document that can be read. -/
def EntitiesReadable (x : Document) : Prop := ∀ row ∈ (x.part "entities").entries, Readable row.2

theorem mapRows_entityContent_eq_ok_iff {contents : List (Scalar × EntityContent)} :
    mapRows entityContent (x.part "entities").entries = .ok contents ↔
      EntitiesReadable x ∧ contents = (x.part "entities").entries.map fun row => (row.1, contentOf row.2) :=
  mapRows_eq_ok_iff (P := Readable) fun _ _ _ => entityContent_eq_ok_iff

/-- The matrix of a document, if all in it is as it should be. -/
def matrixOf (x : Document) (fields : EntityTable (Table (List Operator))) : Matrix where
  fields := fields
  search := (x.part "entities").entries.map fun row => (row.1, (contentOf row.2).search)
  metadata := (x.part "entities").entries.map fun row => (row.1, (contentOf row.2).metadata)
  softDeleteField := ((x.get? "softDeleteField").map Document.display).getD defaultSoftDeleteField

theorem ofDocument_eq_bind (some : (x.part "entities").entries ≠ []) (readable : EntitiesReadable x) :
    ofDocument path x = inFile (operatorTables (tables x) >>= fun fields => pure (matrixOf x fields)) := by
  have read := mapRows_entityContent_eq_ok_iff.mpr ⟨readable, rfl⟩
  rw [ofDocument_of_entities some, read]
  simp only [bind, Except.bind, List.map_map]
  rfl

theorem ofDocument_eq_ok_iff {m : Matrix} : ofDocument path x = .ok m ↔ (x.part "entities").entries ≠ [] ∧
    EntitiesReadable x ∧ ∃ fields, operatorTables (tables x) = .ok fields ∧ m = matrixOf x fields := by
  by_cases some : (x.part "entities").entries = []
  · refine iff_of_false ?_ fun sound => sound.1 some
    by_cases root : x.IsMappingOrNone
    · rw [ofDocument_of_no_entities root some]
      exact nofun
    · rw [ofDocument_of_not_isMappingOrNone root]
      exact nofun
  by_cases readable : EntitiesReadable x
  · rw [ofDocument_eq_bind some readable, inFile_eq_ok_iff, bind_eq_ok_iff, and_iff_right some, and_iff_right readable]
    simp only [pure_eq_ok_iff, eq_comm (a := m)]
  · refine iff_of_false ?_ fun sound => readable sound.2.1
    rw [ofDocument_of_entities some, bind_eq_ok_iff]
    rintro ⟨contents, read, -⟩
    exact readable (mapRows_entityContent_eq_ok_iff.mp read).1

/-- What a matrix has from a document. -/
structure Carries (m : Matrix) (x : Document) : Prop where
  entities : m.entities = (x.part "entities").entries.map (·.1)
  fields (entity : Scalar) (field name : String) : m.isAllowed entity field name = true ↔
    ∃ y, Counts ((x.entity entity).part "fields").entries field y ∧ .scalar (.text name) ∈ y.items
  search (entity : Scalar) : m.searchFields entity = ((x.entity entity).part "searchFields").items.map Document.display
  metadata (entity : Scalar) (name : String) (values : List String) :
    (m.metadataOf entity).lookup name = some values ↔
      ∃ y, Counts ((x.entity entity).part "metadata").entries name y ∧ values = y.items.map Document.display
  softDeleteField : m.softDeleteField =
    ((x.get? "softDeleteField").map Document.display).getD defaultSoftDeleteField

theorem lookup_named_map_iff {α β : Type} {rows : List (Scalar × α)} {g : α → β} {name : String} {y : β} :
    (named (rows.map fun row => (row.1, g row.2))).lookup name = some y ↔ ∃ x, Counts rows name x ∧ y = g x := by
  rw [lookup_named_iff, counts_map_iff]

/-- What the contents of the entities say of an entity is what its value says. -/
theorem getD_lookup_contents {α : Type} (g : EntityContent → List α) (none : g (contentOf null) = []) (x : Document)
    (entity : Scalar) :
    (((x.part "entities").entries.map fun row => (row.1, g (contentOf row.2))).lookup entity).getD [] =
      g (contentOf (x.entity entity)) := by
  have found := lookup_map_snd (fun value => g (contentOf value)) (x.part "entities").entries entity
  rw [found, Document.entity]
  cases (x.part "entities").entries.lookup entity with
  | none => exact none.symm
  | some value => rfl

theorem carries_matrixOf {fields : EntityTable (Table (List Operator))}
    (built : operatorTables (tables x) = .ok fields) : (matrixOf x fields).Carries x where
  entities := by
    rw [operatorTables_eq_mapM] at built
    have related := mapM_rows_eq_ok_iff.mp built
    have names : fields.map (·.1) = (tables x).map (·.1) :=
      (map_eq_of_forall₂ related fun row result same => same.1.symm).symm
    rw [entities, matrixOf, names, tables, List.map_map]
    rfl
  fields entity field name := by
    have found : ((tables x).lookup entity).getD [] = _ := getD_lookup_contents EntityContent.fields rfl x entity
    have columns (members : List Document) : (((tables x).lookup entity).getD []).lookup field = some members ↔
        ∃ y, Counts ((x.entity entity).part "fields").entries field y ∧ members = y.items := by
      rw [found]
      exact lookup_named_map_iff
    rw [isAllowed_iff_listed built]
    constructor
    · rintro ⟨table, members, inside, listed, named⟩
      obtain ⟨y, counts, rfl⟩ := (columns members).mp (lookup_getD_eq_some_iff.mpr ⟨table, inside, listed⟩)
      exact ⟨y, counts, named⟩
    · rintro ⟨y, counts, named⟩
      obtain ⟨table, inside, listed⟩ := lookup_getD_eq_some_iff.mp ((columns y.items).mpr ⟨y, counts, rfl⟩)
      exact ⟨table, y.items, inside, listed, named⟩
  search entity := by
    have found := getD_lookup_contents EntityContent.search rfl x entity
    rw [searchFields, matrixOf, found]
    rfl
  metadata entity name values := by
    have found := getD_lookup_contents EntityContent.metadata rfl x entity
    rw [metadataOf, matrixOf, found]
    exact lookup_named_map_iff (g := fun y : Document => y.items.map Document.display)
  softDeleteField := rfl

/-- A document of which a matrix can be made. -/
structure DescribesMatrix (x : Document) : Prop where
  entities : (x.part "entities").entries ≠ []
  readable : EntitiesReadable x
  operators : ∀ row ∈ tables x, ∀ column ∈ row.2, OnlyOperators column.2

/-- A document has something in it that no check looks for: it is itself no mapping; or something stands in
    the first entity that cannot be read; or else the first list in order that does not hold names
    of operators only holds a value that is no text. -/
def Unforeseen (x : Document) : Prop :=
  ¬ x.IsMappingOrNone ∨
  (∃ before row after, (x.part "entities").entries = before ++ row :: after ∧ UnforeseenIn row.2 ∧
    ∀ earlier ∈ before, Readable earlier.2) ∨
  (EntitiesReadable x ∧ ∃ entity field members, FirstWithout OnlyOperators (tables x) entity field members ∧
    ∃ y ∈ members, y.text? = none)

theorem stumbles_operatorSet_iff {entity : Scalar} {field : String} {members : List Document} :
    Stumbles (inFile (operatorSet entity field members)) ↔ ∃ y ∈ members, y.text? = none := by
  rcases names_or_notName members with ⟨names, rfl⟩ | ⟨y, inside, found⟩
  · have texts : ¬ ∃ y ∈ nameDocuments names, y.text? = none := by
      simp [nameDocuments, text?]
    refine iff_of_false ?_ texts
    by_cases known : AllKnown names
    · rw [operatorSet_of_allKnown known]
      exact not_stumbles_ok
    · rw [operatorSet_of_not_allKnown known]
      exact not_stumbles_refusal trivial
  · have noText : y.text? = none := by simpa using List.find?_some found
    refine iff_of_true ?_ ⟨y, inside, noText⟩
    rw [operatorSet, found]
    exact ⟨_, rfl, id⟩

theorem stumbles_ofTables_iff {t : EntityTable (Table (List Document))} {search : EntityTable (List String)}
    {metadata : EntityTable (Table (List String))} {softDeleteField : String} :
    Stumbles (inFile (ofTables t search metadata softDeleteField)) ↔
      ∃ entity field members, FirstWithout OnlyOperators t entity field members ∧ ∃ y ∈ members, y.text? = none := by
  simp only [stumbles_inFile_iff, ofTables, bind_eq_error_iff, pure_ne_error, and_false, exists_false, or_false,
    operatorTables_eq_error_iff]
  constructor
  · rintro ⟨fault, ⟨entity, field, members, first, failed⟩, other⟩
    exact ⟨entity, field, members, first, stumbles_operatorSet_iff.mp (stumbles_inFile_iff.mpr ⟨fault, failed, other⟩)⟩
  · rintro ⟨entity, field, members, first, noText⟩
    have stumbles : Stumbles (inFile (operatorSet entity field members)) := stumbles_operatorSet_iff.mpr noText
    obtain ⟨fault, failed, other⟩ := stumbles_inFile_iff.mp stumbles
    exact ⟨fault, ⟨entity, field, members, first, failed⟩, other⟩

theorem stumbles_entities_iff : Stumbles (mapRows entityContent (x.part "entities").entries) ↔
    ∃ before row after, (x.part "entities").entries = before ++ row :: after ∧ UnforeseenIn row.2 ∧
      ∀ earlier ∈ before, Readable earlier.2 := by
  have readable (row : Scalar × Document) : (∃ content, entityContent row.1 row.2 = .ok content) ↔ Readable row.2 := by
    simp [entityContent_eq_ok_iff]
  rw [mapRows_eq_mapM, Stumbles]
  simp only [mapM_rows_eq_error_iff, readable]
  constructor
  · rintro ⟨fault, ⟨before, name, value, after, split, failed, earlier⟩, other⟩
    exact ⟨before, (name, value), after, split, stumbles_entityContent_iff.mp ⟨fault, failed, other⟩, earlier⟩
  · rintro ⟨before, ⟨name, value⟩, after, split, unforeseen, earlier⟩
    have stumbles : Stumbles (entityContent name value) := stumbles_entityContent_iff.mpr unforeseen
    obtain ⟨fault, failed, other⟩ := stumbles
    exact ⟨fault, ⟨before, name, value, after, split, failed, earlier⟩, other⟩

theorem stumbles_ofDocument_iff : Stumbles (ofDocument path x) ↔ Unforeseen x := by
  by_cases root : x.IsMappingOrNone
  · by_cases none : (x.part "entities").entries = []
    · rw [ofDocument_of_no_entities root none, Unforeseen]
      refine iff_of_false (not_stumbles_refusal trivial) ?_
      rintro (other | ⟨before, row, after, split, -⟩ | ⟨-, entity, field, members, first, -⟩)
      · exact other root
      · simp [none] at split
      · obtain ⟨before, columns, others, after, split, -⟩ := first
        simp [tables, none] at split
    · -- The entities are read before any list of operators is looked into, which gives the two other cases.
      have fields : ((x.part "entities").entries.map fun row => (row.1, contentOf row.2)).map
          (fun row => (row.1, row.2.fields)) = tables x := List.map_map
      rw [ofDocument_of_entities none, stumbles_bind_iff, stumbles_entities_iff, Unforeseen,
        iff_false_intro (not_not_intro root), false_or]
      refine or_congr_right ?_
      constructor
      · rintro ⟨contents, read, stumbles⟩
        obtain ⟨readable, rfl⟩ := mapRows_entityContent_eq_ok_iff.mp read
        rw [fields] at stumbles
        exact ⟨readable, stumbles_ofTables_iff.mp stumbles⟩
      · rintro ⟨readable, first⟩
        refine ⟨_, mapRows_entityContent_eq_ok_iff.mpr ⟨readable, rfl⟩, ?_⟩
        rw [fields]
        exact stumbles_ofTables_iff.mpr first
  · rw [ofDocument_of_not_isMappingOrNone root]
    exact iff_of_true ⟨_, rfl, id⟩ (.inl root)

theorem describesMatrix_iff : DescribesMatrix x ↔ ∃ m, ofDocument path x = .ok m := by
  simp only [ofDocument_eq_ok_iff]
  constructor
  · intro described
    obtain ⟨fields, built⟩ := exists_operatorTables_iff.mpr described.operators
    exact ⟨_, described.entities, described.readable, fields, built, rfl⟩
  · rintro ⟨m, entities, readable, fields, built, -⟩
    exact ⟨entities, readable, exists_operatorTables_iff.mp ⟨fields, built⟩⟩

theorem load_found {blocks : Bool} {content : String} (read : document blocks content = .ok x) :
    load path (.found blocks content) = ofDocument path x := by
  rw [load, read]
  rfl

/-- A field file that can be read gives a matrix exactly if its document is as it should be throughout, and
    this matrix has from the document what the document says. It is left without a matrix and
    without a refusal exactly if the document has something in it that no check looks for. -/
theorem load_answers (path : String) {blocks : Bool} {content : String} (read : document blocks content = .ok x) :
    ((∃ m, load path (.found blocks content) = .ok m) ↔ DescribesMatrix x) ∧
    (∀ m, load path (.found blocks content) = .ok m → m.Carries x) ∧
    (Stumbles (load path (.found blocks content)) ↔ Unforeseen x) := by
  rw [load_found read]
  refine ⟨describesMatrix_iff.symm, ?_, stumbles_ofDocument_iff⟩
  intro m made
  obtain ⟨-, -, fields, built, rfl⟩ := ofDocument_eq_ok_iff.mp made
  exact carries_matrixOf built

/-- A file with one entity, which has one field, gives a matrix with this entity. -/
theorem load_answers_deals :
    let content := "\x7b\"entities\": \x7b\"deals\": \x7b\"fields\": \x7b\"id\": [\"in\"]\x7d\x7d\x7d\x7d"
    let deals : Document := .mapping [(.text "fields", .mapping [(.text "id", .list [.scalar (.text "in")])])]
    let x : Document := .mapping [(.text "entities", .mapping [(.text "deals", deals)])]
    document false content = .ok x ∧ DescribesMatrix x ∧ ¬ Unforeseen x ∧
      ∃ m, load "fields.json" (.found false content) = .ok m ∧ m.Carries x ∧ m.entities = [.text "deals"] := by
  intro content deals x
  have read : document false content = .ok x := by decide +kernel
  have loaded : load "fields.json" (.found false content) = .ok ⟨[(.text "deals", [("id", [.oneOf])])],
      [(.text "deals", [])], [(.text "deals", [])], "isDeleted"⟩ := (load_found read).trans (by decide)
  obtain ⟨described, carries, unforeseen⟩ := load_answers "fields.json" read
  refine ⟨read, described.mp ⟨_, loaded⟩, ?_, _, loaded, carries _ loaded, rfl⟩
  rw [← unforeseen, loaded]
  exact not_stumbles_ok

/-- A number where operators are listed gives neither a matrix nor a refusal. -/
theorem load_number_for_operators :
    let content := "\x7b\"entities\": \x7b\"p\": \x7b\"fields\": \x7b\"a\": 5\x7d\x7d\x7d\x7d"
    (∃ x, document false content = .ok x) ∧
    ¬ ((∃ m, load "fields.json" (.found false content) = .ok m) ∨
      ∃ fault, load "fields.json" (.found false content) = .error fault ∧ fault.IsRefusal) := by
  intro content
  have read : document false content = .ok (.mapping [(.text "entities", .mapping [(.text "p", .mapping
      [(.text "fields", .mapping [(.text "a", .scalar (.int 5))])])])]) := by decide +kernel
  have failed : load "fields.json" (.found false content) = .error (.matrix (.notList (.scalar (.int 5)))) :=
    (load_found read).trans (by decide)
  refine ⟨⟨_, read⟩, ?_⟩
  rw [failed]
  rintro (⟨m, made⟩ | ⟨fault, isFault, refusal⟩)
  · cases made
  · obtain rfl := Except.error.inj isFault
    exact refusal

end Files

end Matrix

end Criteria
