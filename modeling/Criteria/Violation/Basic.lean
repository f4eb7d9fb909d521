import Criteria.Filter.Depth
import Criteria.Filter.Operator
import Criteria.Json.Text

/-!
The ways to break the rules for a filter. Each violation has its words; they name the
field or the entity that it is about, where there is one.
-/
namespace Criteria

/-- A rule that a filter or its sort key breaks. -/
inductive Violation where
  | unknownEntity (entity : String)
  /-- Something else stands in the place of a group. -/
  | foreignGroup
  | tooDeep (limit : Int)
  | unknownConnective (name : String)
  /-- Something else stands in the place of a condition. -/
  | foreignCondition
  | unsupportedField (field entity : String)
  | unknownOperator (name field : String)
  | notAllowed (operator : Operator) (field : String)
  | notPair (operator : Operator)
  | notDates (operator : Operator) (field : String)
  /-- The set of operands is there, but is no array. -/
  | notSet (operator : Operator)
  /-- Neither `values` nor `value` gives a set of operands. -/
  | noSet (operator : Operator)
  | unknownWindow (value : Json) (field : String)
  | noValue (operator : Operator) (field : String)
  | notDate (operator : Operator) (field : String)
  | unsortableField (entity field : String)
  | unknownDirection (name : String)
deriving DecidableEq, Repr

/-- A text in single quotes, as it is. -/
def inQuotes (s : String) : String := "'" ++ s ++ "'"

/-- The words about an operator. -/
def aboutOperator (operator : Operator) (words : String) : String :=
  "Operator " ++ inQuotes operator.name ++ " " ++ words

/-- The words for a violation. -/
def Violation.message : Violation → String
  | unknownEntity entity => "Invalid entity type " ++ inQuotes entity
  | foreignGroup => "Filter group must be an object"
  | tooDeep limit => tooDeepMessage limit
  | unknownConnective name => "Invalid group operator " ++ inQuotes name
  | foreignCondition => "Filter condition must be an object"
  | unsupportedField field entity =>
    "Field " ++ inQuotes field ++ " is not supported for entity " ++ inQuotes entity
  | unknownOperator name field => "Unknown operator " ++ inQuotes name ++ " for field " ++ inQuotes field
  | notAllowed operator field => aboutOperator operator ("is not supported for field " ++ inQuotes field)
  | notPair operator => aboutOperator operator "requires an array of exactly 2 values"
  | notDates operator field => aboutOperator operator ("requires ISO dates for field " ++ inQuotes field)
  | notSet operator => aboutOperator operator "requires 'values' to be an array"
  | noSet operator => aboutOperator operator "requires either 'values' array or 'value' as array"
  | unknownWindow value field =>
    "Unsupported relative date value " ++ inQuotes value.display ++ " for field " ++ inQuotes field
  | noValue operator field => aboutOperator operator ("requires a value for field " ++ inQuotes field)
  | notDate operator field => aboutOperator operator ("requires an ISO date for field " ++ inQuotes field)
  | unsortableField entity field => "Sort field not allowed for " ++ entity ++ ": " ++ field
  | unknownDirection name => "Sort direction must be 'asc' or 'desc', got " ++ inQuotes name

end Criteria
