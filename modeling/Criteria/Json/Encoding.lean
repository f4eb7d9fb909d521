import Criteria.Json.Reader
import Criteria.Text.Utf8

/-!
JSON as bytes. The encoding is one of UTF-8, UTF-16 and UTF-32; a byte order mark
tells which, and without one the zeros among the first four bytes do, because the
first two characters of a JSON text are ASCII. Bytes that are no text of their
encoding cannot be read; a half of a pair that stands alone is replaced.
-/
namespace Criteria.Json

open Text (Octet)

/-- The encodings of a JSON text. -/
inductive Encoding where
  | utf8
  | utf16 (bigEndian : Bool)
  | utf32 (bigEndian : Bool)
deriving DecidableEq, Repr

namespace Encoding

/-- A byte that continues a character. -/
def isContinuation (b : Octet) : Bool := 0x80 ≤ b && b ≤ 0xBF

/-- The character of a number, if it is not too large to be one. -/
def char? (n : Nat) : Option Char := if 0x10FFFF < n then none else some (Reader.unitChar n)

/-- The characters of bytes in UTF-8. -/
def ofUtf8 : List Octet → Option (List Char)
  | [] => some []
  | a :: rest =>
    if a < 0x80 then (Char.ofNat a :: ·) <$> ofUtf8 rest
    else match rest with
      | [] => none
      | b :: rest =>
        if !isContinuation b then none
        else if 0xC2 ≤ a && a ≤ 0xDF then
          (Reader.unitChar (a % 0x20 * 0x40 + b % 0x40) :: ·) <$> ofUtf8 rest
        else match rest with
          | [] => none
          | c :: rest =>
            if !isContinuation c then none
            else if 0xE0 ≤ a && a ≤ 0xEF then
              let n := a % 0x10 * 0x1000 + b % 0x40 * 0x40 + c % 0x40
              if n < 0x800 then none else (Reader.unitChar n :: ·) <$> ofUtf8 rest
            else match rest with
              | [] => none
              | d :: rest =>
                let n := a % 0x08 * 0x40000 + b % 0x40 * 0x1000 + c % 0x40 * 0x40 + d % 0x40
                if !isContinuation d || a < 0xF0 || 0xF4 < a || n < 0x10000 || 0x10FFFF < n then none
                else (Char.ofNat n :: ·) <$> ofUtf8 rest

/-- The numbers that pairs of bytes write. -/
def pairs (bigEndian : Bool) : List Octet → Option (List Nat)
  | [] => some []
  | [_] => none
  | a :: b :: rest => (((if bigEndian then 0x100 * a + b else 0x100 * b + a)) :: ·) <$> pairs bigEndian rest

/-- The numbers that groups of four bytes write. -/
def quads (bigEndian : Bool) : List Octet → Option (List Nat)
  | [] => some []
  | a :: b :: c :: d :: rest =>
    ((if bigEndian then 0x1000000 * a + 0x10000 * b + 0x100 * c + d
      else 0x1000000 * d + 0x10000 * c + 0x100 * b + a) :: ·) <$> quads bigEndian rest
  | _ => none

/-- The characters of code units of sixteen bits. -/
def ofUnits : List Nat → List Char
  | [] => []
  | [n] => [Reader.unitChar n]
  | n :: m :: rest =>
    if Reader.isHighHalf n && Reader.isLowHalf m then Reader.pairChar n m :: ofUnits rest
    else Reader.unitChar n :: ofUnits (m :: rest)

/-- The characters of bytes in an encoding. -/
def decode : Encoding → List Octet → Option (List Char)
  | .utf8, bs => ofUtf8 bs
  | .utf16 bigEndian, bs => ofUnits <$> pairs bigEndian bs
  | .utf32 bigEndian, bs => do (← quads bigEndian bs).mapM char?

/-- The encoding of bytes without a byte order mark. -/
def guess : List Octet → Encoding
  | 0 :: 0 :: _ :: _ :: _ => .utf32 true
  | 0 :: _ :: _ :: _ :: _ => .utf16 true
  | _ :: 0 :: 0 :: 0 :: _ => .utf32 false
  | _ :: 0 :: _ :: _ :: _ => .utf16 false
  | [0, _] => .utf16 true
  | [_, 0] => .utf16 false
  | _ => .utf8

/-- The encoding of bytes, and the bytes without their byte order mark. -/
def detect : List Octet → Encoding × List Octet
  | 0x00 :: 0x00 :: 0xFE :: 0xFF :: rest => (.utf32 true, rest)
  | 0xFF :: 0xFE :: 0x00 :: 0x00 :: rest => (.utf32 false, rest)
  | 0xFE :: 0xFF :: rest => (.utf16 true, rest)
  | 0xFF :: 0xFE :: rest => (.utf16 false, rest)
  | 0xEF :: 0xBB :: 0xBF :: rest => (.utf8, rest)
  | bs => (guess bs, bs)

end Encoding

/-- The characters that bytes write, if they are a text of their encoding. -/
def decodeBytes (bs : List Octet) : Option (List Char) :=
  let (encoding, rest) := Encoding.detect bs
  encoding.decode rest

end Criteria.Json
