/-!
Texts as bytes. `utf8 c` is the one to four bytes that stand for a character in
UTF-8; an ASCII character stands for itself.
-/
namespace Criteria.Text

/-- A byte, as the number that it is. -/
abbrev Octet := Nat

/-- A byte that continues a character: the last six bits of a number, marked as a continuation. -/
def continuation (n : Nat) : Octet := 0x80 + n % 0x40

/-- The bytes of a character. -/
def utf8 (c : Char) : List Octet :=
  let n := c.toNat
  if n < 0x80 then [n]
  else if n < 0x800 then [0xC0 + n / 0x40, continuation n]
  else if n < 0x10000 then [0xE0 + n / 0x1000, continuation (n / 0x40), continuation n]
  else [0xF0 + n / 0x40000, continuation (n / 0x1000), continuation (n / 0x40), continuation n]

/-- The bytes of a text. -/
def octets (cs : List Char) : List Octet := cs.flatMap utf8

end Criteria.Text
