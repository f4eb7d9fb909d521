import Criteria.Matrix.Document
import Criteria.Proofs.Tables

/-!
What the value of an entity's name comes to. It can be read if it has a mapping of fields,
lists where lists should stand, and metadata that are a mapping or count as none
(`Matrix.Readable`), and it then says what its parts say (`Matrix.entityContent_eq_ok_iff`). A
value without a mapping of fields is refused, and so are metadata of another kind; but a value that
cannot be gone through where a list should stand is met without a check
(`Matrix.stumbles_entityContent_iff`).
-/
namespace Criteria

/-! ### Parts of documents -/

namespace Document

/-- What a mapping has under a name. -/
def get? (name : String) : Document → Option Document
  | mapping rows => rows.lookup (Scalar.text name)
  | _ => none

/-- What a mapping has under a name, or a document without content. -/
def part (x : Document) (name : String) : Document := (x.get? name).getD null

/-- The entries of a mapping. -/
def entries : Document → List (Scalar × Document)
  | mapping rows => rows
  | _ => []

/-- What stands in a document that can be gone through. -/
def items (x : Document) : List Document := x.members?.getD []

/-- A document that is a mapping. -/
def IsMapping (x : Document) : Prop := x = mapping x.entries

/-- A document that can be gone through. -/
def IsList (x : Document) : Prop := x.members?.isSome

/-- A document that can be gone through or that counts as none given. -/
def IsListOrNone (x : Document) : Prop := x.isVacant ∨ x.IsList

/-- A document that is a mapping or that counts as none given. -/
def IsMappingOrNone (x : Document) : Prop := x.isVacant ∨ x.IsMapping

/-- The value of an entity's name, or a document without content. -/
def entity (x : Document) (name : Scalar) : Document := ((x.part "entities").entries.lookup name).getD null

variable {x : Document}

theorem members?_eq_some_iff {l : List Document} : x.members? = some l ↔ x.IsList ∧ l = x.items := by
  rw [IsList, items]
  cases x.members? with
  | none => simp
  | some found => simp [eq_comm]

theorem isMapping_mapping (rows : List (Scalar × Document)) : (mapping rows).IsMapping := rfl

theorem items_of_isVacant (vacant : x.isVacant = true) : x.items = [] := by
  cases x with
  | scalar s =>
    cases s with
    | text s =>
      obtain rfl : s = "" := by simpa [isVacant, Scalar.toJson, Json.isVacant] using vacant
      rfl
    | _ => rfl
  | list l => simpa [isVacant, items, members?] using vacant
  | mapping rows =>
    have none : rows = [] := by simpa [isVacant] using vacant
    rw [none]
    rfl

theorem entries_of_isVacant (vacant : x.isVacant = true) : x.entries = [] := by
  cases x with
  | mapping rows =>
    show rows = []
    simpa [isVacant] using vacant
  | _ => rfl

theorem isMapping_of_entries (some : x.entries ≠ []) : x.IsMapping := by
  cases x with
  | mapping rows => rfl
  | _ => exact absurd rfl some

theorem get?_eq_lookup (x : Document) (name : String) : x.get? name = x.entries.lookup (Scalar.text name) := by
  cases x with
  | mapping rows => rfl
  | _ => rfl

/-- A mapping that is a part of a document is found in it. -/
theorem get?_eq_some_of_isMapping {name : String} (isMapping : (x.part name).IsMapping) :
    x.get? name = some (.mapping (x.part name).entries) := by
  rw [← isMapping, part]
  cases found : x.get? name with
  | none =>
    rw [part, found] at isMapping
    cases isMapping
  | some y => rfl

end Document

open Document

namespace Matrix

/-! ### Steps of the reading -/

/-- A fault by which a file is refused with the words for what is wrong with it. -/
def LoadFault.IsRefusal : LoadFault → Prop
  | .notFound _ | .noEntities _ | .badEntity _ _ | .badMetadata _ _ | .matrix (.unknownOperators _ _ _) => True
  | _ => False

section Steps

variable {ε α β : Type}

/-- Neither a result nor a refusal. -/
def Stumbles (result : Except LoadFault α) : Prop := ∃ fault, result = .error fault ∧ ¬ fault.IsRefusal

theorem not_stumbles_ok {a : α} : ¬ Stumbles (.ok a) := by
  simp [Stumbles]

theorem not_stumbles_refusal {fault : LoadFault} (refusal : fault.IsRefusal) :
    ¬ Stumbles (.error fault : Except LoadFault α) := by
  simp [Stumbles, refusal]

theorem stumbles_bind_iff {x : Except LoadFault α} {f : α → Except LoadFault β} :
    Stumbles (x >>= f) ↔ Stumbles x ∨ ∃ a, x = .ok a ∧ Stumbles (f a) := by
  cases x with
  | error fault => simp [Stumbles, bind, Except.bind]
  | ok a => simp [Stumbles, bind, Except.bind]

/-- A step that is never refused. -/
def NeverRefused (result : Except LoadFault α) : Prop := ∀ fault, result = .error fault → ¬ fault.IsRefusal

theorem NeverRefused.stumbles_iff {x : Except LoadFault α} (never : NeverRefused x) :
    Stumbles x ↔ ¬ ∃ a, x = .ok a := by
  cases x with
  | ok a => simp [not_stumbles_ok]
  | error fault => simp [Stumbles, never fault rfl]

/-- After a step that is never refused the rest counts only if the step has a result. -/
theorem NeverRefused.stumbles_bind_iff {x : Except LoadFault α} {f : α → Except LoadFault β} {P : Prop}
    (never : NeverRefused x) (rest : ∀ a, Stumbles (f a) ↔ P) : Stumbles (x >>= f) ↔ Stumbles x ∨ P := by
  cases x with
  | ok a =>
    rw [iff_false_intro not_stumbles_ok, false_or]
    exact rest a
  | error fault => simp [Stumbles, never fault rfl, bind, Except.bind]

theorem inFile_eq_ok_iff {x : Except MatrixFault α} {a : α} : inFile x = .ok a ↔ x = .ok a := by
  cases x with
  | error fault => simp [inFile]
  | ok b => simp [inFile]

theorem stumbles_inFile_iff {x : Except MatrixFault α} :
    Stumbles (inFile x) ↔ ∃ fault, x = .error fault ∧ ¬ (LoadFault.matrix fault).IsRefusal := by
  cases x with
  | error fault => simp [Stumbles, inFile]
  | ok a => simp [Stumbles, inFile]

theorem mapRows_eq_mapM (f : Scalar → α → Except ε β) (rows : List (Scalar × α)) :
    mapRows f rows = rows.mapM fun row => do return (row.1, ← f row.1 row.2) := by
  induction rows with
  | nil => rfl
  | cons row rest ih => simp [mapRows, ih]

/-- Rows of which each can be read alone can be read, and each is put in its place. -/
theorem mapRows_eq_ok_iff {f : Scalar → α → Except ε β} {P : α → Prop} {g : α → β}
    (each : ∀ name x y, f name x = .ok y ↔ P x ∧ y = g x) {rows : List (Scalar × α)} {made : List (Scalar × β)} :
    mapRows f rows = .ok made ↔ (∀ row ∈ rows, P row.2) ∧ made = rows.map fun row => (row.1, g row.2) := by
  rw [mapRows_eq_mapM, mapM_rows_eq_ok_iff]
  simp only [each]
  constructor
  · intro related
    refine ⟨forall_mem_of_forall₂ related fun row result isMade => isMade.2.1, ?_⟩
    rw [← List.map_id made]
    refine (map_eq_of_forall₂ related fun row result isMade => ?_).symm
    obtain ⟨name, -, content⟩ := isMade
    rw [← name, ← content]
    rfl
  · rintro ⟨sound, rfl⟩
    rw [List.forall₂_map_right_iff, List.forall₂_same]
    intro row inside
    exact ⟨rfl, sound row inside, rfl⟩

end Steps

section Lists

variable {x : Document} {l : List Document}

theorem listed_eq_ok_iff : listed x = .ok l ↔ x.IsList ∧ l = x.items := by
  rw [← members?_eq_some_iff, listed]
  cases x.members? with
  | none => simp
  | some found => simp

theorem texts_eq_ok_iff {words : List String} :
    texts x = .ok words ↔ x.IsList ∧ words = x.items.map Document.display := by
  rw [texts, bind_eq_ok_iff]
  simp only [listed_eq_ok_iff, pure_eq_ok_iff]
  constructor
  · rintro ⟨l, ⟨isList, rfl⟩, rfl⟩
    exact ⟨isList, rfl⟩
  · rintro ⟨isList, rfl⟩
    exact ⟨x.items, ⟨isList, rfl⟩, rfl⟩

theorem isListOrNone_iff : x.IsListOrNone ↔ (orElse x (.list [])).IsList := by
  rw [IsListOrNone, orElse]
  by_cases vacant : x.isVacant
  · simp [vacant, IsList, members?]
  · simp [vacant]

theorem items_orElse (x : Document) : (orElse x (.list [])).items = x.items := by
  rw [orElse]
  by_cases vacant : x.isVacant
  · rw [if_pos vacant, items_of_isVacant vacant]
    rfl
  · rw [if_neg vacant]

theorem listed_orElse_eq_ok_iff : listed (orElse x (.list [])) = .ok l ↔ x.IsListOrNone ∧ l = x.items := by
  rw [listed_eq_ok_iff, items_orElse, isListOrNone_iff]

theorem texts_orElse_eq_ok_iff {words : List String} :
    texts (orElse x (.list [])) = .ok words ↔ x.IsListOrNone ∧ words = x.items.map Document.display := by
  rw [texts_eq_ok_iff, items_orElse, isListOrNone_iff]

/-- The fault of a reading of lists is that one of them cannot be gone through. -/
def OnlyNotList {α : Type} (result : Except MatrixFault α) : Prop :=
  ∀ fault, result = .error fault → ∃ x, fault = .notList x

theorem onlyNotList_listed (x : Document) : OnlyNotList (listed x) := by
  intro fault failed
  rw [listed] at failed
  cases found : x.members? with
  | none =>
    rw [found] at failed
    exact ⟨x, (Except.error.inj failed).symm⟩
  | some l =>
    rw [found] at failed
    cases failed

theorem onlyNotList_texts (x : Document) : OnlyNotList (texts x) := by
  intro fault failed
  rcases bind_eq_error_iff.mp failed with first | ⟨l, -, impossible⟩
  · exact onlyNotList_listed x fault first
  · exact absurd impossible pure_ne_error

theorem onlyNotList_mapRows {α β : Type} {f : Scalar → α → Except MatrixFault β}
    (each : ∀ name x, OnlyNotList (f name x)) (rows : List (Scalar × α)) : OnlyNotList (mapRows f rows) := by
  intro fault failed
  rw [mapRows_eq_mapM] at failed
  obtain ⟨-, name, x, -, -, fails, -⟩ := mapM_rows_eq_error_iff.mp failed
  exact each name x fault fails

theorem OnlyNotList.neverRefused {α : Type} {result : Except MatrixFault α} (only : OnlyNotList result) :
    NeverRefused (inFile result) := by
  intro fault failed
  cases result with
  | ok a => cases failed
  | error cause =>
    obtain ⟨x, rfl⟩ := only cause rfl
    obtain rfl := Except.error.inj failed
    exact id

end Lists

section Mappings

variable {x : Document}

theorem orElse_of_isMappingOrNone (given : x.IsMappingOrNone) : orElse x (.mapping []) = .mapping x.entries := by
  by_cases vacant : x.isVacant
  · rw [orElse, if_pos vacant, entries_of_isVacant vacant]
  · rw [orElse, if_neg vacant]
    exact given.resolve_left vacant

theorem orElse_of_not_isMappingOrNone (other : ¬ x.IsMappingOrNone) (y : Document) : orElse x y = x :=
  if_neg fun vacant => other (.inl vacant)

end Mappings

/-! ### Entities -/

/-- What the value of an entity's name says, all faults aside. -/
def contentOf (value : Document) : EntityContent where
  fields := named ((value.part "fields").entries.map fun row => (row.1, row.2.items))
  search := (value.part "searchFields").items.map Document.display
  metadata := named ((value.part "metadata").entries.map fun row => (row.1, row.2.items.map Document.display))

/-- A value of an entity's name that can be read. -/
structure Readable (value : Document) : Prop where
  fields : (value.part "fields").IsMapping
  operators : ∀ row ∈ (value.part "fields").entries, row.2.IsListOrNone
  search : ∀ x, value.get? "searchFields" = some x → x.IsList
  metadata : (value.part "metadata").IsMappingOrNone
  options : ∀ row ∈ (value.part "metadata").entries, row.2.IsListOrNone

/-- The value of an entity's name has something in it that no check looks for. -/
def UnforeseenIn (value : Document) : Prop :=
  (value.part "fields").IsMapping ∧
    ((∃ row ∈ (value.part "fields").entries, ¬ row.2.IsListOrNone) ∨
      (∃ x, value.get? "searchFields" = some x ∧ ¬ x.IsList) ∨
      ∃ row ∈ (value.part "metadata").entries, ¬ row.2.IsListOrNone)

/-- The lists of the fields of an entity. -/
def readFields (value : Document) : Except LoadFault (List (Scalar × List Document)) :=
  inFile ((value.part "fields").entries |> mapRows fun _ names => listed (orElse names (.list [])))

/-- The search fields of an entity. -/
def readSearch (value : Document) : Except LoadFault (List String) :=
  inFile (texts ((value.get? "searchFields").getD (.list [])))

/-- The lists of the metadata of an entity. -/
def readOptions (value : Document) : Except LoadFault (List (Scalar × List String)) :=
  inFile ((value.part "metadata").entries |> mapRows fun _ names => texts (orElse names (.list [])))

section Entities

variable {name : Scalar} {value : Document}

theorem entityContent_of_not_isMapping (other : ¬ (value.part "fields").IsMapping) :
    entityContent name value = .error (.badEntity name value) := by
  cases value with
  | mapping rows =>
    have found : (mapping rows).part "fields" = (rows.lookup (Scalar.text "fields")).getD null := rfl
    rw [entityContent]
    split
    · rename_i columns columnsFound
      rw [found, columnsFound] at other
      exact absurd (isMapping_mapping columns) other
    · rfl
  | _ => rfl

theorem entityContent_of_isMappingOrNone (fields : (value.part "fields").IsMapping)
    (metadata : (value.part "metadata").IsMappingOrNone) :
    entityContent name value = (do
      let fields ← readFields value
      let search ← readSearch value
      return ⟨named fields, search, named (← readOptions value)⟩) := by
  cases value with
  | mapping rows =>
    have columns : rows.lookup (Scalar.text "fields") = _ := get?_eq_some_of_isMapping fields
    have values : orElse ((rows.lookup (Scalar.text "metadata")).getD .null) (.mapping []) = _ :=
      orElse_of_isMappingOrNone metadata
    rw [entityContent, columns]
    simp only [values]
    rfl
  | _ => cases fields

theorem entityContent_of_not_isMappingOrNone (fields : (value.part "fields").IsMapping)
    (other : ¬ (value.part "metadata").IsMappingOrNone) :
    entityContent name value = (do
      let _ ← readFields value
      let _ ← readSearch value
      throw (.badMetadata name (value.part "metadata"))) := by
  cases value with
  | mapping rows =>
    have columns : rows.lookup (Scalar.text "fields") = _ := get?_eq_some_of_isMapping fields
    have values : orElse ((rows.lookup (Scalar.text "metadata")).getD .null) (.mapping []) = _ :=
      orElse_of_not_isMappingOrNone other _
    rw [entityContent, columns]
    simp only [values]
    generalize (mapping rows).part "metadata" = metadata at other
    cases metadata with
    | mapping l => exact absurd (.inr rfl) other
    | _ => rfl
  | _ => cases fields

theorem readFields_eq_ok_iff {fields : List (Scalar × List Document)} : readFields value = .ok fields ↔
    (∀ row ∈ (value.part "fields").entries, row.2.IsListOrNone) ∧
      fields = (value.part "fields").entries.map fun row => (row.1, row.2.items) := by
  rw [readFields, inFile_eq_ok_iff]
  exact mapRows_eq_ok_iff (P := IsListOrNone) fun _ _ _ => listed_orElse_eq_ok_iff

theorem readOptions_eq_ok_iff {options : List (Scalar × List String)} : readOptions value = .ok options ↔
    (∀ row ∈ (value.part "metadata").entries, row.2.IsListOrNone) ∧
      options = (value.part "metadata").entries.map fun row => (row.1, row.2.items.map Document.display) := by
  rw [readOptions, inFile_eq_ok_iff]
  exact mapRows_eq_ok_iff (P := IsListOrNone) fun _ _ _ => texts_orElse_eq_ok_iff

theorem readSearch_eq_ok_iff {search : List String} : readSearch value = .ok search ↔
    (∀ x, value.get? "searchFields" = some x → x.IsList) ∧
      search = (value.part "searchFields").items.map Document.display := by
  rw [readSearch, inFile_eq_ok_iff, texts_eq_ok_iff, part]
  cases value.get? "searchFields" with
  | none => simp [IsList, members?, items, null]
  | some x => simp

theorem neverRefused_readFields (value : Document) : NeverRefused (readFields value) :=
  (onlyNotList_mapRows (fun _ names => onlyNotList_listed (orElse names (.list []))) _).neverRefused

theorem neverRefused_readSearch (value : Document) : NeverRefused (readSearch value) :=
  (onlyNotList_texts _).neverRefused

theorem neverRefused_readOptions (value : Document) : NeverRefused (readOptions value) :=
  (onlyNotList_mapRows (fun _ names => onlyNotList_texts (orElse names (.list []))) _).neverRefused

theorem stumbles_readFields_iff :
    Stumbles (readFields value) ↔ ∃ row ∈ (value.part "fields").entries, ¬ row.2.IsListOrNone := by
  rw [(neverRefused_readFields value).stumbles_iff]
  simp [readFields_eq_ok_iff]

theorem stumbles_readSearch_iff :
    Stumbles (readSearch value) ↔ ∃ x, value.get? "searchFields" = some x ∧ ¬ x.IsList := by
  rw [(neverRefused_readSearch value).stumbles_iff]
  simp [readSearch_eq_ok_iff]

theorem stumbles_readOptions_iff :
    Stumbles (readOptions value) ↔ ∃ row ∈ (value.part "metadata").entries, ¬ row.2.IsListOrNone := by
  rw [(neverRefused_readOptions value).stumbles_iff]
  simp [readOptions_eq_ok_iff]

theorem entityContent_eq_ok_iff {content : EntityContent} :
    entityContent name value = .ok content ↔ Readable value ∧ content = contentOf value := by
  by_cases fields : (value.part "fields").IsMapping
  · by_cases metadata : (value.part "metadata").IsMappingOrNone
    · rw [entityContent_of_isMappingOrNone fields metadata]
      simp only [bind_eq_ok_iff, pure_eq_ok_iff, readFields_eq_ok_iff, readSearch_eq_ok_iff, readOptions_eq_ok_iff]
      constructor
      · rintro ⟨_, ⟨operators, rfl⟩, _, ⟨search, rfl⟩, _, ⟨options, rfl⟩, rfl⟩
        exact ⟨⟨fields, operators, search, metadata, options⟩, rfl⟩
      · rintro ⟨readable, rfl⟩
        exact ⟨_, ⟨readable.operators, rfl⟩, _, ⟨readable.search, rfl⟩, _, ⟨readable.options, rfl⟩, rfl⟩
    · rw [entityContent_of_not_isMappingOrNone fields metadata]
      simp only [bind_eq_ok_iff]
      refine iff_of_false ?_ fun readable => metadata readable.1.metadata
      rintro ⟨_, -, _, -, impossible⟩
      cases impossible
  · rw [entityContent_of_not_isMapping fields]
    exact iff_of_false nofun fun readable => fields readable.1.fields

theorem entries_of_not_isMappingOrNone {x : Document} (other : ¬ x.IsMappingOrNone) : x.entries = [] := by
  by_contra some
  exact other (.inr (isMapping_of_entries some))

theorem stumbles_entityContent_iff : Stumbles (entityContent name value) ↔ UnforeseenIn value := by
  unfold UnforeseenIn
  by_cases fields : (value.part "fields").IsMapping
  · rw [and_iff_right fields, ← stumbles_readFields_iff, ← stumbles_readSearch_iff, ← stumbles_readOptions_iff]
    by_cases metadata : (value.part "metadata").IsMappingOrNone
    · rw [entityContent_of_isMappingOrNone fields metadata]
      refine (neverRefused_readFields value).stumbles_bind_iff fun columns => ?_
      refine (neverRefused_readSearch value).stumbles_bind_iff fun search => ?_
      have done (values : List (Scalar × List String)) :
          Stumbles (pure ⟨named columns, search, named values⟩ : Except LoadFault EntityContent) ↔ False :=
        iff_false_intro not_stumbles_ok
      rw [(neverRefused_readOptions value).stumbles_bind_iff done, or_false]
    · -- Metadata of another kind are refused after the lists before them are read, and hold no lists.
      have none : ¬ Stumbles (readOptions value) := by
        rw [stumbles_readOptions_iff, entries_of_not_isMappingOrNone metadata]
        simp
      rw [entityContent_of_not_isMappingOrNone fields metadata]
      refine (neverRefused_readFields value).stumbles_bind_iff fun columns => ?_
      refine (neverRefused_readSearch value).stumbles_bind_iff fun search => ?_
      exact iff_of_false (not_stumbles_refusal trivial) none
  · rw [entityContent_of_not_isMapping fields]
    exact iff_of_false (not_stumbles_refusal trivial) fun unforeseen => fields unforeseen.1

end Entities

end Matrix

end Criteria
