import Criteria.Decimal.Rounding
import Criteria.Document.Scalar
import Criteria.Text.Integer
import Criteria.Text.Segments

/-!
The values of the words of field files. A word may stand for no value, for a truth value
or for a number; any other word stands for itself. Numbers may hold underscores, and
integers, of any length, may be written in binary, octal, decimal and hexadecimal digits,
or as digits of base sixty between colons.
-/
namespace Criteria.Yaml

/-- The words that stand for no value. -/
def nullWords : List String := ["~", "null", "Null", "NULL"]

/-- The words that stand for true. -/
def trueWords : List String := ["yes", "Yes", "YES", "true", "True", "TRUE", "on", "On", "ON"]

/-- The words that stand for false. -/
def falseWords : List String := ["no", "No", "NO", "false", "False", "FALSE", "off", "Off", "OFF"]

/-- The words that have a meaning of their own, and stand for no value of a field file. -/
def reservedWords : List String := ["=", "<<"]

/-- The value of a digit of base sixteen or less. -/
def digit? (base : Nat) (c : Char) : Option Nat :=
  let n := c.toNat
  let d :=
    if 48 ≤ n && n ≤ 57 then n - 48
    else if 97 ≤ n && n ≤ 102 then n - 87
    else if 65 ≤ n && n ≤ 70 then n - 55
    else base
  if d < base then some d else none

/-- The digits of a word without its underscores. -/
def digits? (base : Nat) (cs : List Char) : Option (List Nat) :=
  (cs.filter (· != '_')).mapM (digit? base)

/-- The number that digits of a base write; at least one digit is needed. -/
def number? (base : Nat) (cs : List Char) : Option Nat := do
  let ds ← digits? base cs
  if ds.isEmpty then none else return ds.foldl (fun n d => base * n + d) 0

/-- The number that a part of a base sixty number writes: at most two digits, less than sixty. -/
def sixtieth? (cs : List Char) : Option Nat := do
  if cs.contains '_' || 2 < cs.length then none
  else
    let n ← number? 10 cs
    if n < 60 then return n else none

/-- The number that a word without sign writes, if it is an integer. -/
def natural? : List Char → Option Nat
  | ['0'] => some 0
  | '0' :: 'b' :: cs => number? 2 cs
  | '0' :: 'x' :: cs => number? 16 cs
  | '0' :: cs => number? 8 ('0' :: cs)
  | '_' :: _ => none
  | cs =>
    match Text.segments ':' cs with
    | first :: parts => do
      let n ← number? 10 first
      let parts ← parts.mapM sixtieth?
      return parts.foldl (fun n d => 60 * n + d) n
    | [] => none

/-- The integer that a word writes. -/
def integer? (cs : List Char) : Option Int :=
  let (negative, body) := Text.signAndRest cs
  (natural? body).map fun n => if negative then -(n : Int) else n

/-- The power of ten that follows a number, zero if there is none. It has a sign. -/
def power? : List Char → Option Int
  | [] => some 0
  | e :: sign :: cs =>
    if (e == 'e' || e == 'E') && (sign == '-' || sign == '+') && !cs.contains '_' then
      (number? 10 cs).map fun n => if sign == '-' then -(n : Int) else n
    else none
  | _ => none

/-- Whether a character can stand in the digits of a number. -/
def isNumeral (c : Char) : Bool := (digit? 10 c).isSome || c == '_'

/-- The floating-point number that a word writes: digits with a point among them. A sign stands only
before a digit. -/
def float? (cs : List Char) : Option Binary64 := do
  let (negative, body) := Text.signAndRest cs
  let whole := body.takeWhile isNumeral
  match body.dropWhile isNumeral with
  | '.' :: rest =>
    let part := rest.takeWhile isNumeral
    let first? := if whole.isEmpty then part.head? else whole.head?
    let power ← power? (rest.dropWhile isNumeral)
    if (whole.isEmpty && body.length < cs.length) || (first?.bind (digit? 10)).isNone then none
    else
      let ds ← digits? 10 (whole ++ part)
      let places := (part.filter (· != '_')).length
      return Binary64.ofDecimal negative (Text.ofDigits ds) (power - places)
  | _ => none

/-- The words for what is not finite. -/
def notFinite? (cs : List Char) : Option Binary64 :=
  let (negative, body) := Text.signAndRest cs
  let word := String.ofList body
  if [".inf", ".Inf", ".INF"].contains word then some (.infinity negative)
  else if [".nan", ".NaN", ".NAN"].contains (String.ofList cs) then some .nan
  else none

/-- The value of a word, unless it is reserved. -/
def wordValue? (cs : List Char) : Option Scalar :=
  let s := String.ofList cs
  if reservedWords.contains s then none
  else if nullWords.contains s then some .null
  else if trueWords.contains s then some (.bool true)
  else if falseWords.contains s then some (.bool false)
  else match integer? cs with
    | some n => some (.int n)
    | none =>
      match (float? cs).orElse fun _ => notFinite? cs with
      | some x => some (.float x)
      | none => some (.text s)

end Criteria.Yaml
