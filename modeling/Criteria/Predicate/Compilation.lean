import Criteria.Calendar.Window
import Criteria.Filter.DateOperand
import Criteria.Filter.Depth
import Criteria.Predicate.Basic
import Criteria.Rejection

/-!
The predicate of a filter. A condition becomes a leaf for its operator, placed under
the path of its field; a group becomes its conditions and then its subgroups, joined
by its connective. What can go wrong is told by its cause, and the first cause in
this order counts: the depth of a group, its connective, its conditions, its groups.
-/
namespace Criteria

open Calendar (Moment Now RelativeWindow)

/-- Why a filter has no predicate. -/
inductive CompileFault where
  | unknownOperator (name : String)
  | unknownWindow (name : String)
  /-- The operand is not a list of two. -/
  | notPair (operator : Operator) (operand : Json)
  | date (fault : DateFault)
  /-- The window of the operand leaves the calendar. -/
  | calendar (fault : Calendar.Fault)
  /-- The set of operands cannot be gone through. -/
  | notSet (operand : Json)
  | tooDeep (limit : Int)
  | unknownConnective (name : String)
  /-- A foreign value stands where a condition or a group should. -/
  | foreign (value : Json)
deriving DecidableEq, Repr

/-- The words for a window that has no name. -/
def unknownWindowMessage (name : String) : String :=
  "Unsupported relative date value: " ++ Text.quoted name

/-- The words for a fault that has words of its own. -/
def CompileFault.message? : CompileFault → Option String
  | unknownOperator name => some ("Unsupported filter operator: " ++ Text.quoted name)
  | unknownWindow name => some (unknownWindowMessage name)
  | notPair operator operand =>
    some ("Operator '" ++ operator.name ++ "' requires an array of exactly 2 values, got " ++
      operand.literal)
  | date fault => some fault.message
  | calendar fault => some fault.message
  | notSet _ | tooDeep _ | unknownConnective _ | foreign _ => none

/-- The refusal for a fault of the tree. -/
def CompileFault.rejection? : CompileFault → Option Rejection
  | tooDeep limit => some (.invalidFilter [tooDeepMessage limit])
  | unknownConnective _ => some (.invalidFilter ["Invalid group operator"])
  | _ => none

namespace Predicate

/-- The mode of the tests that ignore case. -/
def insensitive : String × Predicate := ("mode", text "insensitive")

end Predicate

/-- The operands of a pair. -/
def pairOf (op : Operator) : Json → Except CompileFault (Json × Json)
  | .arr [low, high] => .ok (low, high)
  | operand => .error (.notPair op operand)

/-- The moment of a date operand. -/
def momentOf (operand : Json) : Except CompileFault Moment :=
  match dateOperand operand with
  | .ok m => .ok m
  | .error fault => .error (.date fault)

/-- A result of the calendar. -/
def onCalendar {α : Type} : Except Calendar.Fault α → Except CompileFault α
  | .ok x => .ok x
  | .error fault => .error (.calendar fault)

namespace Condition

/-- The set of operands: the members of `values` if it is given, or else the items of `value`, which
stands for itself if it is not an array. -/
def operandSet (c : Condition) : Except CompileFault (List Json) :=
  if c.values.isNull then
    match c.value with
    | .arr items => .ok items
    | x => .ok [x]
  else match c.values.members? with
    | some items => .ok items
    | none => .error (.notSet c.values)

/-- The leaf for an operator. -/
def leafOf (now : Now) (c : Condition) (op : Operator) : Except CompileFault Predicate := do
  let operand := Predicate.ofJson c.value
  match op with
  | .equals => return .object [("equals", operand)]
  | .notEquals => return .object [("not", operand)]
  | .greaterThan => return .object [("gt", operand)]
  | .greaterThanOrEqual => return .object [("gte", operand)]
  | .lessThan => return .object [("lt", operand)]
  | .lessThanOrEqual => return .object [("lte", operand)]
  | .contains => return .object [("contains", operand), Predicate.insensitive]
  | .notContains =>
    return .object [("not", .object [("contains", operand), Predicate.insensitive])]
  | .startsWith => return .object [("startsWith", operand), Predicate.insensitive]
  | .endsWith => return .object [("endsWith", operand), Predicate.insensitive]
  | .between =>
    let (low, high) ← pairOf op c.value
    return .object [("gte", Predicate.ofJson low), ("lte", Predicate.ofJson high)]
  | .oneOf => return .object [("in", .list (Predicate.ofItems (← c.operandSet)))]
  | .noneOf => return .object [("notIn", .list (Predicate.ofItems (← c.operandSet)))]
  | .isEmpty => return .object [("equals", .null)]
  | .isNotEmpty => return .object [("not", .null)]
  | .dateEquals =>
    let start := (← momentOf c.value).startOfDay
    return .object [("gte", .moment start), ("lt", .moment (← onCalendar (start.addDays 1)))]
  | .dateBefore => return .object [("lt", .moment (← momentOf c.value))]
  | .dateAfter => return .object [("gt", .moment (← momentOf c.value))]
  | .dateBetween =>
    let (low, high) ← pairOf op c.value
    let low ← momentOf low
    let high ← momentOf high
    return .object [("gte", .moment low), ("lte", .moment high)]
  | .dateRelative =>
    match RelativeWindow.ofName? c.value.display with
    | none => throw (.unknownWindow c.value.display)
    | some w =>
      let window ← onCalendar (w.resolve now)
      return .object [("gte", .moment window.start), ("lt", .moment window.stop)]

/-- The leaf of a condition. -/
def leaf (now : Now) (c : Condition) : Except CompileFault Predicate :=
  match Operator.ofName? c.operator with
  | none => .error (.unknownOperator c.operator)
  | some op => c.leafOf now op

/-- The predicate of a condition: its leaf, put under its path by `place`. -/
def compile (place : List String → Predicate → Predicate) (now : Now) (c : Condition) :
    Except CompileFault Predicate := do
  return place c.path (← c.leaf now)

end Condition

/-- The predicate of a member. -/
def Member.compile (place : List String → Predicate → Predicate) (now : Now) :
    Member → Except CompileFault Predicate
  | .condition c => c.compile place now
  | .foreign value => .error (.foreign value)

namespace Group

mutual

/-- The predicate of a tree whose root is at the given level. -/
def compileAt (place : List String → Predicate → Predicate) (now : Now) (limit level : Int) :
    Group → Except CompileFault Predicate
  | node operator members groups => do
    if limit < level then throw (.tooDeep limit)
    if (Connective.ofName? operator).isNone then throw (.unknownConnective operator)
    let own ← members.mapM (Member.compile place now)
    let nested ← compileAll place now limit (level + 1) groups
    return Predicate.combine operator (own ++ nested)
  | foreign value =>
    if limit < level then .error (.tooDeep limit) else .error (.foreign value)

/-- The predicates of several trees whose roots are at the given level. -/
def compileAll (place : List String → Predicate → Predicate) (now : Now) (limit level : Int) :
    List Group → Except CompileFault (List Predicate)
  | [] => .ok []
  | g :: rest => do
    let first ← compileAt place now limit level g
    let others ← compileAll place now limit level rest
    return first :: others

end

/-- The predicate of a tree of at most `limit` levels. -/
def compile (now : Now) (limit : Int) (g : Group) : Except CompileFault Predicate :=
  g.compileAt Predicate.nest now limit 1

end Group

end Criteria
