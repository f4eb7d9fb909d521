import Criteria.Decimal.Layout
import Criteria.Json.Basic
import Criteria.Text.Quoted

/-!
Writing JSON. Texts stand in double quotes, the quote, the backslash and the control
characters escaped; a floating-point number is written with the fewest digits that
read back as it.
-/
namespace Criteria.Json

/-- A character as it stands in a text. -/
def escaped (c : Char) : List Char :=
  if c == '"' || c == '\\' then ['\\', c]
  else if c.toNat < 0x20 then '\\' :: 'u' :: Text.hexDigits 4 c.toNat
  else [c]

/-- A floating-point number; what is not finite is written as the reader takes it. -/
def writeFloat (x : Binary64) : String :=
  match x.view with
  | .nan => "NaN"
  | .infinite negative => if negative then "-Infinity" else "Infinity"
  | .finite _ _ _ => x.text

/-- A text between double quotes. -/
def writeText (s : String) : String := String.ofList ('"' :: s.toList.flatMap escaped ++ ['"'])

mutual

/-- The text of a value. -/
def write : Json → String
  | null => "null"
  | bool b => if b then "true" else "false"
  | int n => toString n
  | float x => writeFloat x
  | str s => writeText s
  | arr items => "[" ++ writeItems items ++ "]"
  | obj entries => "\x7b" ++ writeEntries entries ++ "\x7d"

/-- The texts of values, with commas between them. -/
def writeItems : List Json → String
  | [] => ""
  | [x] => write x
  | x :: y :: rest => write x ++ "," ++ writeItems (y :: rest)

/-- The texts of entries, with commas between them. -/
def writeEntries : List (String × Json) → String
  | [] => ""
  | [(k, x)] => writeText k ++ ":" ++ write x
  | (k, x) :: y :: rest => writeText k ++ ":" ++ write x ++ "," ++ writeEntries (y :: rest)

end

end Criteria.Json
