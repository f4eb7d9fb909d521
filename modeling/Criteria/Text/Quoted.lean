import Criteria.Text.Printable

/-!
Quoted text. A text is written between quotes so that it can be told from what
surrounds it: in single quotes, or in double quotes if it holds a single quote
and no double quote. Inside, the backslash and the enclosing quote are written
after a backslash, the line breaks and the tab by their letters, and any other
hidden character by its code point in hexadecimal digits.
-/
namespace Criteria.Text

/-- The hexadecimal digit of a number below sixteen. -/
def hexDigit (d : Nat) : Char := if d < 10 then Char.ofNat (48 + d) else Char.ofNat (87 + d)

/-- The last `width` hexadecimal digits of a number, the most significant first. -/
def hexDigits : Nat → Nat → List Char
  | 0, _ => []
  | width + 1, n => hexDigits width (n / 16) ++ [hexDigit (n % 16)]

/-- A hidden character as a code point: two, four or eight digits, the fewest that hold it. -/
def codePoint (c : Char) : List Char :=
  let n := c.toNat
  if n < 0x100 then '\\' :: 'x' :: hexDigits 2 n
  else if n < 0x10000 then '\\' :: 'u' :: hexDigits 4 n
  else '\\' :: 'U' :: hexDigits 8 n

/-- One character as it stands between two quotes of the given kind. -/
def quotedChar (quote : Char) (c : Char) : List Char :=
  if c == quote || c == '\\' then ['\\', c]
  else if c == '\n' then ['\\', 'n']
  else if c == '\r' then ['\\', 'r']
  else if c == '\t' then ['\\', 't']
  else if isPrintable c then [c]
  else codePoint c

/-- The quote that encloses a text. -/
def quoteFor (cs : List Char) : Char :=
  if cs.contains '\'' && !cs.contains '"' then '"' else '\''

/-- A text between quotes. -/
def quoted (s : String) : String :=
  let cs := s.toList
  let q := quoteFor cs
  String.ofList (q :: cs.flatMap (quotedChar q) ++ [q])

end Criteria.Text
