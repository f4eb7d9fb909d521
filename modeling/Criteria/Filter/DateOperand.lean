import Criteria.Calendar.Iso.Reader
import Criteria.Json.Text
import Criteria.Text.Blank

/-!
Dates as operands. An operand is a date if it is a text in ISO 8601, blanks around it
aside; a final `Z` of either case stands for universal time.
-/
namespace Criteria

open Calendar (Moment)

/-- Why an operand is no date: it is not a text, or a blank one, or its text writes no date. -/
inductive DateFault where
  | notText (operand : Json)
  | calendar (fault : Calendar.Fault)
deriving DecidableEq, Repr

/-- The words for a fault of a date operand. -/
def DateFault.message : DateFault → String
  | .notText operand => "Not a date: " ++ operand.literal
  | .calendar fault => fault.message

/-- A text with its final `Z`, if it has one, written as an offset. -/
def withOffset (cs : List Char) : List Char :=
  match cs.reverse with
  | c :: rest => if c == 'Z' || c == 'z' then rest.reverse ++ ['+', '0', '0', ':', '0', '0'] else cs
  | [] => cs

/-- The moment that an operand writes. -/
def dateOperand (operand : Json) : Except DateFault Moment :=
  match operand with
  | .str s =>
    match Text.trimChars s.toList with
    | [] => .error (.notText operand)
    | cs =>
      match Calendar.Iso.read (String.ofList (withOffset cs)) with
      | .ok m => .ok m
      | .error fault => .error (.calendar fault)
  | _ => .error (.notText operand)

/-- Whether an operand is a date. -/
def isDateOperand (operand : Json) : Bool :=
  match dateOperand operand with
  | .ok _ => true
  | .error _ => false

end Criteria
