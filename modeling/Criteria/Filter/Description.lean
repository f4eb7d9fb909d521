import Criteria.Filter.Tree
import Criteria.Json.Text

/-!
Filters in words. A condition reads as its field, its operator and its operand; the
parts of a group are joined by its connective, and a subgroup of several parts stands
in parentheses. A subgroup without conditions is left out.
-/
namespace Criteria

/-- Names to show for fields. -/
abbrev Labels := List (String × String)

/-- A text with blanks for its underscores. -/
def spaced (s : String) : String :=
  String.ofList (s.toList.map fun c => if c == '_' then ' ' else c)

/-- An operand in words: the items of a list with `and` between them, anything else in double quotes. -/
def operandText : Json → String
  | .arr items => " and ".intercalate (items.map Json.display)
  | x => "\"" ++ x.display ++ "\""

namespace Condition

/-- The operand to show, if there is one: the set of operands if one is given, the value otherwise.
An empty text or an empty set of operands is not shown. -/
def shownOperand? (c : Condition) : Option Json :=
  if c.values.isNull then
    if c.value = .null ∨ c.value = .str "" then none else some c.value
  else if c.values = .str "" ∨ c.values = .arr [] then none
  else some c.values

/-- A condition in words. -/
def describe (labels : Labels) (c : Condition) : String :=
  let subject := (labels.lookup c.field).getD c.field ++ " " ++ spaced c.operator
  if ((Operator.ofName? c.operator).map (·.takesNothing)).getD false then subject
  else match c.shownOperand? with
    | none => subject
    | some x => subject ++ " " ++ operandText x

end Condition

/-- A member in words, unless it is foreign. -/
def Member.describe? (labels : Labels) : Member → Option String
  | .condition c => some (c.describe labels)
  | .foreign _ => none

namespace Group

/-- The parts of a group in one text, empty if there are none. -/
def joinParts (operator : String) (nested : Bool) (parts : List String) : String :=
  let text := (" " ++ operator ++ " ").intercalate parts
  if nested && 1 < parts.length then "(" ++ text ++ ")" else text

mutual

/-- A tree in words, empty if it has no conditions; nothing if it holds a foreign value. -/
def sentence? (labels : Labels) (nested : Bool) : Group → Option String
  | node operator members groups => do
    let own ← members.mapM (Member.describe? labels)
    let nestedParts ← sentences? labels groups
    return joinParts operator nested (own ++ nestedParts)
  | foreign _ => none

/-- The texts of several subgroups, those without conditions left out. -/
def sentences? (labels : Labels) : List Group → Option (List String)
  | [] => some []
  | g :: rest => do
    let first ← sentence? labels true g
    let others ← sentences? labels rest
    return if first == "" then others else first :: others

end

/-- The text for a filter without conditions. -/
def noFilters : String := "No filters applied"

/-- A filter in words; nothing if its tree holds a foreign value. -/
def describe? (labels : Labels) (g : Group) : Option String :=
  (g.sentence? labels false).map fun text => if text == "" then noFilters else text

end Group

end Criteria
