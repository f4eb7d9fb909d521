import Criteria.Filter.Operator
import Criteria.Json.Basic
import Criteria.Text.Segments

/-!
Filter trees. A condition tests one field; a group joins conditions and further
groups by a connective. Names of operators and connectives are kept as they came, so
that unknown ones can be reported, and a place where a condition or a group should
stand may hold a foreign value instead.
-/
namespace Criteria

/-- The path of a field through to-one relations: the segments of its name between dots. -/
def fieldPath (field : String) : List String := (Text.segments '.' field.toList).map String.ofList

/-- A test of one field. Its operand is `value`, or a set of operands in `values`; null is none. -/
structure Condition where
  field : String
  operator : String
  value : Json
  values : Json
deriving DecidableEq, Repr

/-- What stands in the conditions of a group. -/
inductive Member where
  | condition (c : Condition)
  | foreign (value : Json)
deriving DecidableEq, Repr

/-- A group of conditions and groups, or a foreign value in the place of one. -/
inductive Group where
  | node (operator : String) (conditions : List Member) (groups : List Group)
  | foreign (value : Json)
deriving Repr, Inhabited

namespace Condition

/-- The path of the field. -/
def path (c : Condition) : List String := fieldPath c.field

end Condition

namespace Group

/-- The group that joins nothing. -/
def empty : Group := .node Connective.all.name [] []

/-- Whether a group has no members. -/
def isEmpty : Group → Bool
  | node _ [] [] => true
  | _ => false

mutual

/-- The number of levels of a tree: one more than that of its deepest subgroup. -/
def depth : Group → Nat
  | node _ _ groups => depths groups + 1
  | foreign _ => 1

/-- The number of levels of the deepest of several trees, zero if there are none. -/
def depths : List Group → Nat
  | [] => 0
  | g :: rest => max (depth g) (depths rest)

end

mutual

/-- The conditions of a tree: those of a group before those of its subgroups, each in order. -/
def conditions : Group → List Condition
  | node _ members groups =>
    (members.filterMap fun
      | .condition c => some c
      | .foreign _ => none) ++ conditionsOfAll groups
  | foreign _ => []

/-- The conditions of several trees, in order. -/
def conditionsOfAll : List Group → List Condition
  | [] => []
  | g :: rest => conditions g ++ conditionsOfAll rest

end

end Group

end Criteria
