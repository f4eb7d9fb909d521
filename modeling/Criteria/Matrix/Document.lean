import Criteria.Json.Reader
import Criteria.Matrix.Basic

/-!
Matrices in documents. A field file names its entities, each with its fields, its
search fields and its metadata; `ofDocument` reads what such a file holds and names
the first thing that is wrong with it. The names of entities keep their kind, and all
other names are taken as texts. `ofJson` takes the tables of a matrix as they are written
in JSON, without the checks that a file is put through.
-/
namespace Criteria

namespace Matrix

/-- The rows of a table. -/
def rows : Document → Except MatrixFault (List (Scalar × Document))
  | .mapping entries => .ok entries
  | x => .error (.notTable x)

/-- The members of a list. -/
def listed (x : Document) : Except MatrixFault (List Document) :=
  match x.members? with
  | some items => .ok items
  | none => .error (.notList x)

/-- The members of a list, in words. -/
def texts (x : Document) : Except MatrixFault (List String) := do
  return (← listed x).map Document.display

/-- A value, or another one if it counts as none given. -/
def orElse (x y : Document) : Document := if x.isVacant then y else x

/-- Each row of a table, put through a function of its name and its content. -/
def mapRows {ε α β : Type} (f : Scalar → α → Except ε β) :
    List (Scalar × α) → Except ε (List (Scalar × β))
  | [] => .ok []
  | (name, x) :: rest => do
    let y ← f name x
    return (name, y) :: (← mapRows f rest)

/-- Rows with their names in words; of rows that are then named the same the last one counts, at the
place of the first. -/
def named {α : Type} (table : List (Scalar × α)) : Table α :=
  Entries.ofList (· == ·) (table.map fun row => (row.1.display, row.2))

/-- The matrix whose tables are written as JSON objects and lists. -/
def ofJson (fields search metadata : Json) (softDeleteField : String) : Except MatrixFault Matrix := do
  let fields ← (← rows (.ofJson fields)) |> mapRows fun entity columns => do
    let table ← (← rows columns) |> mapRows fun field names => do
      operatorSet entity field.display (← listed names)
    return named table
  let search ← (← rows (orElse (.ofJson search) (.mapping []))) |> mapRows fun _ names => texts names
  let metadata ← (← rows (orElse (.ofJson metadata) (.mapping []))) |> mapRows fun _ values => do
    return named (← (← rows values) |> mapRows fun _ names => texts names)
  return ⟨fields, search, metadata, softDeleteField⟩

/-- Why a field file gives no matrix. -/
inductive LoadFault where
  | notFound (path : String)
  | noEntities (path : String)
  | badEntity (name : Scalar) (value : Document)
  | badMetadata (name : Scalar) (value : Document)
  | matrix (fault : MatrixFault)
  | malformedJson (fault : Json.ReadFault)
  | malformedBlocks
deriving DecidableEq, Repr

/-- A result for tables, as one for a file. -/
def inFile {α : Type} : Except MatrixFault α → Except LoadFault α
  | .ok x => .ok x
  | .error fault => .error (.matrix fault)

/-- What a field file says of one entity. -/
structure EntityContent where
  fields : Table (List Document)
  search : List String
  metadata : Table (List String)

/-- What the value of an entity's name says. -/
def entityContent (name : Scalar) (value : Document) : Except LoadFault EntityContent :=
  match value with
  | .mapping entries =>
    match entries.lookup (Scalar.text "fields") with
    | some (.mapping columns) => do
      let fields ← inFile (columns |> mapRows fun _ names => listed (orElse names (.list [])))
      let search ← inFile (texts ((entries.lookup (Scalar.text "searchFields")).getD (.list [])))
      match orElse ((entries.lookup (Scalar.text "metadata")).getD .null) (.mapping []) with
      | .mapping values =>
        let metadata ← inFile (values |> mapRows fun _ names => texts (orElse names (.list [])))
        return ⟨named fields, search, named metadata⟩
      | x => throw (.badMetadata name x)
    | _ => .error (.badEntity name value)
  | _ => .error (.badEntity name value)

/-- The matrix that a document describes. -/
def ofDocument (path : String) (document : Document) : Except LoadFault Matrix := do
  let root ← inFile (rows (orElse document (.mapping [])))
  match (root.lookup (Scalar.text "entities")).getD (.mapping []) with
  | .mapping (entity :: others) =>
    let contents ← (entity :: others) |> mapRows entityContent
    let softDeleteField :=
      ((root.lookup (Scalar.text "softDeleteField")).map Document.display).getD defaultSoftDeleteField
    inFile (ofTables (contents.map fun row => (row.1, row.2.fields))
      (contents.map fun row => (row.1, row.2.search)) (contents.map fun row => (row.1, row.2.metadata))
      softDeleteField)
  | _ => throw (.noEntities path)

/-- The words for a fault of a field file. Some have none of their own. -/
def LoadFault.message? : LoadFault → Option String
  | .notFound path => some ("Filter field mapping file not found: " ++ path)
  | .noEntities path => some ("No entities defined in " ++ path)
  | .badEntity name value => some ("Bad entity mapping for " ++ name.display ++ ": " ++ value.display)
  | .badMetadata name value => some ("Bad metadata for " ++ name.display ++ ": " ++ value.display)
  | .matrix (.unknownOperators entity field names) =>
    some (MatrixFault.unknownOperatorsMessage entity field names)
  | .matrix _ => none
  | .malformedJson fault => some fault.message
  | .malformedBlocks => none

end Matrix

end Criteria
