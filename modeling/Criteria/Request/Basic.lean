import Criteria.Filter.Tree

/-!
Requests for a filtered list. A request names an entity, filters its rows, may look for
a term, and may ask for an order and for one page. A group and a request have a wire
form; `Group.toJson` and `Request.toJson` write it.
-/
namespace Criteria

/-- The field to sort by, and the name of the direction. -/
structure SortKey where
  field : String
  direction : String
deriving DecidableEq, Repr

/-- The page to show, counted from 1, and the number of rows on a page. -/
structure PageRequest where
  number : Int
  limit : Int
deriving DecidableEq, Repr

/-- A request. The term to look for is null if there is none. -/
structure Request where
  entity : String
  filters : Group
  search : Json
  sort : Option SortKey
  pagination : Option PageRequest
deriving Repr

/-- The wire form of a condition; null operands in `values` are left out. -/
def Condition.toJson (c : Condition) : Json :=
  .obj ([("field", .str c.field), ("operator", .str c.operator), ("value", c.value)] ++
    if c.values.isNull then [] else [("values", c.values)])

/-- The wire form of a member. A foreign value is written as it is. -/
def Member.toJson : Member → Json
  | .condition c => c.toJson
  | .foreign value => value

namespace Group

mutual

/-- The wire form of a tree. A foreign value is written as it is. -/
def toJson : Group → Json
  | node operator members groups =>
    .obj [("operator", .str operator), ("conditions", .arr (members.map Member.toJson)),
      ("groups", .arr (toJsons groups))]
  | foreign value => value

/-- The wire forms of several trees. -/
def toJsons : List Group → List Json
  | [] => []
  | g :: rest => toJson g :: toJsons rest

end

end Group

/-- The wire form of a sort key. -/
def SortKey.toJson (s : SortKey) : Json := .obj [("field", .str s.field), ("direction", .str s.direction)]

/-- The wire form of a page request. -/
def PageRequest.toJson (p : PageRequest) : Json := .obj [("page", .int p.number), ("limit", .int p.limit)]

/-- The wire form of a request; what is not asked for is left out. -/
def Request.toJson (r : Request) : Json :=
  .obj ([("entity", .str r.entity), ("filters", r.filters.toJson)] ++
    (if r.search.isNull then [] else [("search", r.search)]) ++
    (r.sort.map fun s => ("sort", s.toJson)).toList ++
    (r.pagination.map fun p => ("pagination", p.toJson)).toList)

end Criteria
