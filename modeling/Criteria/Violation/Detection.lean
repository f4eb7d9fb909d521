import Criteria.Calendar.Window
import Criteria.Filter.DateOperand
import Criteria.Matrix.Basic
import Criteria.Request.Basic
import Criteria.Violation.Basic

/-!
The rules for a filter, checked against a capability matrix. All violations are told,
those of a group before those of its conditions and those before the ones of its
subgroups. A field that is not listed, an operator that is not known, a group that is
too deep and a foreign value are told once, and nothing else is asked of them.
-/
namespace Criteria

open Calendar (RelativeWindow)

/-- Whether an operand names a window. -/
def isWindowName : Json → Bool
  | .str s => (RelativeWindow.ofName? s).isSome
  | _ => false

namespace Condition

/-- What is wrong with the operand of a condition under a known operator. -/
def operandViolations (c : Condition) (op : Operator) : List Violation :=
  if op.takesPair then
    match c.value with
    | .arr [low, high] =>
      if op.takesDates && !(isDateOperand low && isDateOperand high) then [.notDates op c.field] else []
    | _ => [.notPair op]
  else if op.takesSet then
    if !c.values.isNull then if c.values.isArray then [] else [.notSet op]
    else if c.value.isArray then [] else [.noSet op]
  else if op.takesNothing then []
  else if op = .dateRelative then
    if isWindowName c.value then [] else [.unknownWindow c.value c.field]
  else if c.value.isNull then [.noValue op c.field]
  else if op.takesDates && !isDateOperand c.value then [.notDate op c.field]
  else []

/-- What is wrong with a condition on a field of an entity. -/
def violations (m : Matrix) (entity : String) (c : Condition) : List Violation :=
  match m.operators? entity c.field with
  | none => [.unsupportedField c.field entity]
  | some allowed =>
    match Operator.ofName? c.operator with
    | none => [.unknownOperator c.operator c.field]
    | some op => (if allowed.contains op then [] else [.notAllowed op c.field]) ++ c.operandViolations op

end Condition

/-- What is wrong with a member. -/
def Member.violations (m : Matrix) (entity : String) : Member → List Violation
  | .condition c => c.violations m entity
  | .foreign _ => [.foreignCondition]

namespace Group

mutual

/-- What is wrong with a tree whose root is at the given level. -/
def violationsAt (m : Matrix) (entity : String) (limit level : Int) : Group → List Violation
  | node operator members groups =>
    if limit < level then [.tooDeep limit]
    else (if (Connective.ofName? operator).isSome then [] else [.unknownConnective operator]) ++
      members.flatMap (Member.violations m entity) ++ violationsOfAll m entity limit (level + 1) groups
  | foreign _ => [.foreignGroup]

/-- What is wrong with several trees whose roots are at the given level. -/
def violationsOfAll (m : Matrix) (entity : String) (limit level : Int) : List Group → List Violation
  | [] => []
  | g :: rest => violationsAt m entity limit level g ++ violationsOfAll m entity limit level rest

end

/-- What is wrong with a filter of the rows of an entity. -/
def violations (m : Matrix) (entity : String) (limit : Int) (g : Group) : List Violation :=
  if m.hasEntity entity then g.violationsAt m entity limit 1 else [.unknownEntity entity]

end Group

/-- Whether the rows of an entity can be sorted by a field. -/
def Matrix.isSortable (m : Matrix) (entity field : String) : Bool :=
  (m.operators? entity field).isSome || (m.searchFields entity).contains field

/-- What is wrong with a sort key for the rows of an entity. -/
def SortKey.violations (m : Matrix) (entity : String) (s : SortKey) : List Violation :=
  (if m.isSortable entity s.field then [] else [.unsortableField entity s.field]) ++
    if Direction.names.contains s.direction then [] else [.unknownDirection s.direction]

/-- What is wrong with a filter and a sort key. The sort key is looked at if the entity is known. -/
def violations (m : Matrix) (limit : Int) (entity : String) (g : Group) (sort : Option SortKey) :
    List Violation :=
  g.violations m entity limit ++
    match sort with
    | some s => if m.hasEntity entity then s.violations m entity else []
    | none => []

end Criteria
