import Criteria.Calendar.Date
import Criteria.Filter.Operator
import Criteria.Json.Basic

/-!
Predicates, as they are handed to a store: values like those of JSON, with moments
among them. Three shapes join other predicates: the empty object holds always, an
object with the one entry `AND` holds if all of its list hold, and one with the one
entry `OR` if some of its list holds. Anything else is a fragment, which the store
understands.
-/
namespace Criteria

open Calendar (Moment)

/-- A predicate, or a part of one. -/
inductive Predicate where
  | null
  | bool (b : Bool)
  | int (n : Int)
  | float (x : Binary64)
  | text (s : String)
  | moment (m : Moment)
  | list (items : List Predicate)
  | object (entries : List (String × Predicate))
deriving Repr, Inhabited

namespace Predicate

mutual

/-- An operand in a predicate. -/
def ofJson : Json → Predicate
  | .null => null
  | .bool b => bool b
  | .int n => int n
  | .float x => float x
  | .str s => text s
  | .arr items => list (ofItems items)
  | .obj entries => object (ofEntries entries)

/-- Operands in a predicate. -/
def ofItems : List Json → List Predicate
  | [] => []
  | x :: rest => ofJson x :: ofItems rest

/-- Named operands in a predicate. -/
def ofEntries : List (String × Json) → List (String × Predicate)
  | [] => []
  | (k, x) :: rest => (k, ofJson x) :: ofEntries rest

end

/-- The predicate that always holds. -/
def always : Predicate := object []

/-- Whether a predicate is the one that always holds. -/
def isAlways : Predicate → Bool
  | object [] => true
  | _ => false

/-- A leaf under the segments of a field path, the last segment innermost. -/
def nest (path : List String) (leaf : Predicate) : Predicate :=
  path.foldr (fun segment inner => object [(segment, inner)]) leaf

/-- A leaf under a path of at least one segment. -/
def nest? (path : List String) (leaf : Predicate) : Option Predicate :=
  if path.isEmpty then none else some (nest path leaf)

/-- The words for a path without segments. -/
def emptyPathMessage : String := "Field path must have at least one segment"

/-- Predicates joined by a connective. One stands for itself; of none, `OR` never holds and anything
else always does. -/
def combine (connective : String) : List Predicate → Predicate
  | [] => if connective == Connective.any.name then object [(connective, list [])] else always
  | [p] => p
  | parts => object [(connective, list parts)]

end Predicate

end Criteria
