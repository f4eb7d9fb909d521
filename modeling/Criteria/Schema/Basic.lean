import Criteria.Filter.Operator
import Criteria.Json.Basic

/-!
The shape of a request. Each shape is a list of keywords, and each keyword a demand on
the values of that shape; shapes name one another, so that a group can hold groups. A
keyword demands something of the values that it is about and nothing of all others.
-/
namespace Criteria.Schema

/-- The kinds of value that shapes tell apart. -/
inductive Kind where
  | object
  | array
  | text
  | integer
  | null
deriving DecidableEq, Repr

namespace Kind

/-- The name of a kind. -/
def name : Kind → String
  | object => "object"
  | array => "array"
  | text => "string"
  | integer => "integer"
  | null => "null"

/-- Whether a value is of a kind. A floating-point number without a fraction is an integer. -/
def holds : Kind → Json → Bool
  | object, .obj _ => true
  | array, .arr _ => true
  | text, .str _ => true
  | integer, .int _ => true
  | integer, .float x => x.isIntegral
  | null, .null => true
  | _, _ => false

end Kind

/-- The shapes of a request and of its parts. -/
inductive Shape where
  | request
  | group
  | groups
  | condition
  | conditions
  | sort
  | pagination
  /-- A text of at least one character. -/
  | name
  | operator
  | connective
  | direction
  /-- An integer from 1 on. -/
  | count
  /-- A text or null. -/
  | optionalText
  | list
  | any
deriving DecidableEq, Repr

/-- The demands that a shape is made of. -/
inductive Keyword where
  /-- The value is of one of these kinds. -/
  | kinds (allowed : List Kind)
  /-- An object has no entries but those that have a shape. -/
  | closed
  /-- The entries of an object have these shapes. -/
  | entries (shapes : List (String × Shape))
  /-- An object has these entries. -/
  | required (names : List String)
  /-- The items of an array have this shape. -/
  | items (shape : Shape)
  /-- A text is not empty. -/
  | nonEmpty
  /-- The value is one of these texts. -/
  | choice (texts : List String)
  /-- A number is not below this one. -/
  | minimum (n : Nat)
deriving DecidableEq, Repr

/-- The keywords of a shape, in the order in which they are checked. -/
def Shape.keywords : Shape → List Keyword
  | request =>
    [.kinds [.object], .closed,
      .entries [("entity", name), ("filters", group), ("search", optionalText), ("sort", sort),
        ("pagination", pagination)],
      .required ["entity", "filters"]]
  | group =>
    [.kinds [.object], .closed,
      .entries [("operator", connective), ("conditions", conditions), ("groups", groups)],
      .required ["operator"]]
  | groups => [.kinds [.array], .items group]
  | condition =>
    [.kinds [.object], .closed,
      .entries [("field", name), ("operator", operator), ("value", any), ("values", list)],
      .required ["field", "operator"]]
  | conditions => [.kinds [.array], .items condition]
  | sort =>
    [.kinds [.object, .null], .closed, .entries [("field", name), ("direction", direction)],
      .required ["field"]]
  | pagination =>
    [.kinds [.object, .null], .closed, .entries [("page", count), ("limit", count)]]
  | name => [.kinds [.text], .nonEmpty]
  | operator => [.kinds [.text], .choice (Operator.all.map (·.name))]
  | connective => [.kinds [.text], .choice Connective.names]
  | direction => [.kinds [.text], .choice Direction.names]
  | count => [.kinds [.integer], .minimum 1]
  | optionalText => [.kinds [.text, .null]]
  | list => [.kinds [.array]]
  | any => []

/-- The shapes of the entries of an object of a shape. -/
def Shape.entries (s : Shape) : List (String × Shape) :=
  s.keywords.flatMap fun
    | .entries shapes => shapes
    | _ => []

end Criteria.Schema
