import Criteria.Text.Blank
import Criteria.Text.Quoted

/-!
Integers written as text. `readInteger` takes a sign, then decimal digits of any
script with single underscores between them, with blanks around the whole, and
refuses a text of more than `digitLimit` digits. A text that is not of this form
is quoted in the message, cut after 200 characters.
-/
namespace Criteria.Text

/-- The zeros of the decimal digit runs beyond ASCII; the nine code points after each are its digits. -/
def wideZeros : List Nat := [
    0x660, 0x6F0, 0x7C0, 0x966, 0x9E6, 0xA66, 0xAE6, 0xB66, 0xBE6, 0xC66, 0xCE6, 0xD66, 0xDE6,
    0xE50, 0xED0, 0xF20, 0x1040, 0x1090, 0x17E0, 0x1810, 0x1946, 0x19D0, 0x1A80, 0x1A90, 0x1B50,
    0x1BB0, 0x1C40, 0x1C50, 0xA620, 0xA8D0, 0xA900, 0xA9D0, 0xA9F0, 0xAA50, 0xABF0, 0xFF10,
    0x104A0, 0x10D30, 0x11066, 0x110F0, 0x11136, 0x111D0, 0x112F0, 0x11450, 0x114D0, 0x11650,
    0x116C0, 0x11730, 0x118E0, 0x11950, 0x11C50, 0x11D50, 0x11DA0, 0x16A60, 0x16AC0, 0x16B50,
    0x1D7CE, 0x1D7D8, 0x1D7E2, 0x1D7EC, 0x1D7F6, 0x1E140, 0x1E2F0, 0x1E950, 0x1FBF0]

/-- The value of a decimal digit of any script. -/
def digitValue? (c : Char) : Option Nat :=
  let n := c.toNat
  if 48 ≤ n && n ≤ 57 then some (n - 48)
  else (wideZeros.find? fun z => z ≤ n && n ≤ z + 9).map (n - ·)

/-- The blanks that may stand around an integer: those of ASCII but its separators, and all wide ones. -/
def isIntegerBlank (c : Char) : Bool :=
  c == ' ' || (0x09 ≤ c.toNat && c.toNat ≤ 0x0D) || isWideBlank c

/-- The most digits an integer may be written with. -/
def digitLimit : Nat := 4300

/-- Why a text is no integer. -/
inductive IntegerFault where
  | malformed (text : String)
  | tooLong (digits : Nat)
deriving DecidableEq, Repr

/-- The words for a fault of an integer text. -/
def IntegerFault.message : IntegerFault → String
  | .malformed text =>
    "invalid literal for int() with base 10: " ++ String.ofList ((quoted text).toList.take 200)
  | .tooLong digits =>
    "Exceeds the limit (" ++ toString digitLimit ++ " digits) for integer string conversion: value has " ++
      toString digits ++ " digits; use sys.set_int_max_str_digits() to increase the limit"

/-- The digits at the start of a list, single underscores between them, and the rest; nothing if an
underscore is not followed by a digit. -/
def digitRun : List Char → Option (List Nat × List Char)
  | [] => some ([], [])
  | '_' :: c :: rest => do
    let _ ← digitValue? c
    digitRun (c :: rest)
  | ['_'] => none
  | c :: rest =>
    match digitValue? c with
    | none => some ([], c :: rest)
    | some d => do
      let (ds, rest) ← digitRun rest
      return (d :: ds, rest)

/-- The number that decimal digits stand for, the most significant first. -/
def ofDigits (ds : List Nat) : Nat := ds.foldl (fun n d => 10 * n + d) 0

/-- The sign at the start of a list and what follows it. -/
def signAndRest : List Char → Bool × List Char
  | '-' :: rest => (true, rest)
  | '+' :: rest => (false, rest)
  | rest => (false, rest)

/-- The integer that a text writes. -/
def readInteger (s : String) : Except IntegerFault Int :=
  let (negative, body) := signAndRest (s.toList.dropWhile isIntegerBlank)
  match body with
  | [] => .error (.malformed s)
  | first :: _ =>
    if first == '_' then .error (.malformed s)
    else match digitRun body with
      | none => .error (.malformed s)
      | some ([], _) => .error (.malformed s)
      | some (ds, rest) =>
        if digitLimit < ds.length then .error (.tooLong ds.length)
        else if rest.all isIntegerBlank then
          .ok (if negative then -(ofDigits ds : Int) else ofDigits ds)
        else .error (.malformed s)

end Criteria.Text
