/-!
The operators of a condition and the connectives of a group. Each has a name on the
wire; `ofName?` finds the operator of a name and `name_inj` says that no two share
one. The tables group the operators by the operand that they take and by the type of
field that they suit.
-/
namespace Criteria

/-- The tests that a condition can make of a field. -/
inductive Operator where
  | equals
  | notEquals
  | contains
  | notContains
  | startsWith
  | endsWith
  | greaterThan
  | greaterThanOrEqual
  | lessThan
  | lessThanOrEqual
  | between
  | oneOf
  | noneOf
  | isEmpty
  | isNotEmpty
  | dateEquals
  | dateBefore
  | dateAfter
  | dateBetween
  | dateRelative
deriving DecidableEq, Repr

namespace Operator

/-- The name of an operator. -/
def name : Operator → String
  | equals => "equals"
  | notEquals => "not_equals"
  | contains => "contains"
  | notContains => "not_contains"
  | startsWith => "starts_with"
  | endsWith => "ends_with"
  | greaterThan => "greater_than"
  | greaterThanOrEqual => "greater_than_or_equal"
  | lessThan => "less_than"
  | lessThanOrEqual => "less_than_or_equal"
  | between => "between"
  | oneOf => "in"
  | noneOf => "not_in"
  | isEmpty => "is_empty"
  | isNotEmpty => "is_not_empty"
  | dateEquals => "date_equals"
  | dateBefore => "date_before"
  | dateAfter => "date_after"
  | dateBetween => "date_between"
  | dateRelative => "date_relative"

/-- All operators, in the order of their names. -/
def all : List Operator :=
  [between, contains, dateAfter, dateBefore, dateBetween, dateEquals, dateRelative, endsWith, equals,
    greaterThan, greaterThanOrEqual, oneOf, isEmpty, isNotEmpty, lessThan, lessThanOrEqual, notContains,
    notEquals, noneOf, startsWith]

/-- The operator of a name. -/
def ofName? (s : String) : Option Operator := all.find? (·.name == s)

/-- The operators that take a low and a high operand. -/
def takesPair : Operator → Bool
  | between | dateBetween => true
  | _ => false

/-- The operators that take a set of operands. -/
def takesSet : Operator → Bool
  | oneOf | noneOf => true
  | _ => false

/-- The operators that take no operand. -/
def takesNothing : Operator → Bool
  | isEmpty | isNotEmpty => true
  | _ => false

/-- The operators whose operands are dates. -/
def takesDates : Operator → Bool
  | dateEquals | dateBefore | dateAfter | dateBetween => true
  | _ => false

theorem mem_all (op : Operator) : op ∈ all := by cases op <;> decide

theorem ofName?_name (op : Operator) : ofName? op.name = some op := by cases op <;> decide

theorem name_inj {a b : Operator} (h : a.name = b.name) : a = b :=
  Option.some.inj ((ofName?_name a).symm.trans ((congrArg ofName? h).trans (ofName?_name b)))

theorem ofName?_eq_some_iff {s : String} {op : Operator} : ofName? s = some op ↔ op.name = s := by
  constructor
  · intro found
    simpa using List.find?_some found
  · rintro rfl
    exact ofName?_name op

end Operator

/-- The types of field that a filter builder knows. -/
inductive FieldType where
  | text
  | number
  | date
  | enum
  | boolean
deriving DecidableEq, Repr

namespace FieldType

/-- All types, in the order in which they are offered. -/
def all : List FieldType := [text, number, date, enum, boolean]

/-- The name of a type. -/
def name : FieldType → String
  | text => "text"
  | number => "number"
  | date => "date"
  | enum => "enum"
  | boolean => "boolean"

/-- The operators that a filter builder offers for a type. -/
def operators : FieldType → List Operator
  | text =>
    [.equals, .notEquals, .contains, .notContains, .startsWith, .endsWith, .isEmpty, .isNotEmpty]
  | number =>
    [.equals, .notEquals, .greaterThan, .greaterThanOrEqual, .lessThan, .lessThanOrEqual, .between,
      .isEmpty, .isNotEmpty]
  | date => [.dateEquals, .dateBefore, .dateAfter, .dateBetween, .dateRelative, .isEmpty, .isNotEmpty]
  | enum => [.equals, .notEquals, .oneOf, .noneOf]
  | boolean => [.equals]

end FieldType

/-- The ways to join the members of a group. -/
inductive Connective where
  | all
  | any
deriving DecidableEq, Repr

namespace Connective

/-- The name of a connective. -/
def name : Connective → String
  | all => "AND"
  | any => "OR"

/-- The connective of a name. -/
def ofName? (s : String) : Option Connective :=
  if s = "AND" then some all else if s = "OR" then some any else none

/-- The names of the connectives. -/
def names : List String := [all.name, any.name]

theorem ofName?_name (k : Connective) : ofName? k.name = some k := by cases k <;> decide

theorem ofName?_eq_some_iff {s : String} {k : Connective} : ofName? s = some k ↔ k.name = s := by
  constructor
  · intro found
    unfold ofName? at found
    split at found
    · rename_i same
      cases found
      exact same.symm
    · split at found
      · rename_i same
        cases found
        exact same.symm
      · cases found
  · rintro rfl
    exact ofName?_name k

end Connective

/-- The directions of a sort. -/
inductive Direction where
  | ascending
  | descending
deriving DecidableEq, Repr

namespace Direction

/-- The name of a direction. -/
def name : Direction → String
  | ascending => "asc"
  | descending => "desc"

/-- The names of the directions. -/
def names : List String := [ascending.name, descending.name]

end Direction

end Criteria
