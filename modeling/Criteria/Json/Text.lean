import Criteria.Decimal.Layout
import Criteria.Json.Basic
import Criteria.Text.Quoted

/-!
JSON values in messages. `literal` writes a value so that its kind can be seen:
texts are quoted, lists stand in brackets and entries in braces. `display` is the
same but for a text, which stands for itself. Integers are written at any length:
the limit of `Text.digitLimit` digits is kept where a value is read, so no value read
from a JSON text holds an integer beyond it (`Reader.numberOf`), and a message about
such a value has no need of the limit.
-/
namespace Criteria.Json

/-- The spelling of a truth value. -/
def truth (b : Bool) : String := if b then "True" else "False"

mutual

/-- A value with its kind visible. -/
def literal : Json → String
  | null => "None"
  | bool b => truth b
  | int n => toString n
  | float x => x.text
  | str s => Text.quoted s
  | arr items => "[" ++ literals items ++ "]"
  | obj entries => "\x7b" ++ entryLiterals entries ++ "\x7d"

/-- Values, with commas between them. -/
def literals : List Json → String
  | [] => ""
  | [x] => literal x
  | x :: y :: rest => literal x ++ ", " ++ literals (y :: rest)

/-- Entries, with commas between them. -/
def entryLiterals : List (String × Json) → String
  | [] => ""
  | [(k, x)] => Text.quoted k ++ ": " ++ literal x
  | (k, x) :: y :: rest => Text.quoted k ++ ": " ++ literal x ++ ", " ++ entryLiterals (y :: rest)

end

/-- A value as it reads in running text. -/
def display : Json → String
  | str s => s
  | x => literal x

end Criteria.Json
