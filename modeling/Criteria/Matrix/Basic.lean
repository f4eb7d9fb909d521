import Criteria.Document.Text
import Criteria.Filter.Operator
import Criteria.Text.Order

/-!
Capability matrices. A matrix lists the entities that can be filtered, the operators
that each of their fields allows, the fields that a search looks through, and the
values that a filter builder offers. What is not listed is not allowed. An entity is
named by a scalar, nearly always a text. `ofTables` builds a matrix from tables of names
and refuses a name that is no operator.
-/
namespace Criteria

/-- A table of names: its rows in order, looked up by name. -/
abbrev Table (α : Type) := List (String × α)

/-- A table of entities: its rows in order, looked up by name. -/
abbrev EntityTable (α : Type) := List (Scalar × α)

/-- What filters may ask of each entity. -/
structure Matrix where
  /-- The operators that each field of an entity allows, in the order of their names. -/
  fields : EntityTable (Table (List Operator))
  /-- The fields of an entity that a search looks through. -/
  search : EntityTable (List String)
  /-- The fixed values that a filter builder offers for an entity. -/
  metadata : EntityTable (Table (List String))
  /-- The field that tells whether a row is deleted. -/
  softDeleteField : String
deriving DecidableEq, Repr

/-- Why there is no matrix of some tables. -/
inductive MatrixFault where
  /-- The names that are no operators, in order. -/
  | unknownOperators (entity : Scalar) (field : String) (names : List String)
  /-- A value that is no text stands in a list of operators. -/
  | notName (value : Document)
  /-- A value that cannot be gone through stands where a list should. -/
  | notList (value : Document)
  /-- A value that is no mapping stands where a table should. -/
  | notTable (value : Document)
deriving DecidableEq, Repr

namespace MatrixFault

/-- The words for unknown operators. -/
def unknownOperatorsMessage (entity : Scalar) (field : String) (names : List String) : String :=
  "Unknown operators for " ++ entity.display ++ "." ++ field ++ ": " ++ ", ".intercalate names

end MatrixFault

namespace Matrix

/-- The field that tells whether a row is deleted, where nothing else is said. -/
def defaultSoftDeleteField : String := "isDeleted"

/-- The names of the entities. -/
def entities (m : Matrix) : List Scalar := m.fields.map (·.1)

/-- Whether a matrix has an entity. -/
def hasEntity (m : Matrix) (entity : Scalar) : Bool := (m.fields.lookup entity).isSome

/-- The fields of an entity, with the operators that they allow. -/
def fieldsOf (m : Matrix) (entity : Scalar) : Table (List Operator) := (m.fields.lookup entity).getD []

/-- The operators that a field allows, if the entity has it. -/
def operators? (m : Matrix) (entity : Scalar) (field : String) : Option (List Operator) :=
  (m.fieldsOf entity).lookup field

/-- The operators that a field allows. -/
def operatorsOf (m : Matrix) (entity : Scalar) (field : String) : List Operator :=
  (m.operators? entity field).getD []

/-- Whether a field allows the operator of a name. -/
def isAllowed (m : Matrix) (entity : Scalar) (field operator : String) : Bool :=
  (m.operatorsOf entity field).any (·.name == operator)

/-- The fields of an entity that a search looks through. -/
def searchFields (m : Matrix) (entity : Scalar) : List String := (m.search.lookup entity).getD []

/-- The fixed values of an entity. -/
def metadataOf (m : Matrix) (entity : Scalar) : Table (List String) := (m.metadata.lookup entity).getD []

/-- The names of the operators of each field of an entity. -/
def fieldNames (m : Matrix) (entity : Scalar) : Table (List String) :=
  (m.fieldsOf entity).map fun row => (row.1, row.2.map (·.name))

/-- The names of the operators of each field, for one entity or for all of them. -/
def config (m : Matrix) (entity? : Option Scalar) : EntityTable (Table (List String)) :=
  let names := match entity? with
    | some entity => [entity]
    | none => m.entities
  names.map fun entity => (entity, m.fieldNames entity)

/-- The operators that a list of names lists, each once and in the order of their names. -/
def operatorSet (entity : Scalar) (field : String) (names : List Document) :
    Except MatrixFault (List Operator) :=
  match names.find? (·.text?.isNone) with
  | some x => .error (.notName x)
  | none =>
    let texts := names.filterMap (·.text?)
    let unknown := texts.filter fun name => (Operator.ofName? name).isNone
    if unknown.isEmpty then .ok (Operator.all.filter fun op => texts.contains op.name)
    else .error (.unknownOperators entity field (Text.sorted unknown))

/-- The operators that each field of an entity lists. -/
def operatorTable (entity : Scalar) : Table (List Document) → Except MatrixFault (Table (List Operator))
  | [] => .ok []
  | (field, names) :: rest => do
    let operators ← operatorSet entity field names
    return (field, operators) :: (← operatorTable entity rest)

/-- The operators that each field of each entity lists. -/
def operatorTables :
    EntityTable (Table (List Document)) → Except MatrixFault (EntityTable (Table (List Operator)))
  | [] => .ok []
  | (entity, fields) :: rest => do
    let table ← operatorTable entity fields
    return (entity, table) :: (← operatorTables rest)

/-- The matrix of some tables. -/
def ofTables (fields : EntityTable (Table (List Document))) (search : EntityTable (List String))
    (metadata : EntityTable (Table (List String))) (softDeleteField : String) :
    Except MatrixFault Matrix := do
  return ⟨← operatorTables fields, search, metadata, softDeleteField⟩

end Matrix

end Criteria
