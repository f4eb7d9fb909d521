import Criteria.Decimal.Rounding
import Criteria.Entries
import Criteria.Json.Basic
import Criteria.Text.Integer

/-!
Reading JSON. The reader takes the grammar of JSON and, beyond it, the numbers
`NaN`, `Infinity` and `-Infinity`. Of entries with one name the last value counts,
at the place of the first. Each step works on the characters that are left and
hands on a shorter list, so that reading ends; where it fails, the characters left
tell the place.

An escape may write half of a pair of code units without its other half. That is no
character, and a text has no place for it, so that U+FFFD stands for it (`unitChar`).
What is said of a text with such a half is therefore said of the text with U+FFFD in
its place: names that differ in their lone halves only are one name, and a date with a
lone half where any character may stand, between its day and its time, can be read.
-/
namespace Criteria.Json

/-- What is wrong at a place of a text. -/
inductive SyntaxFault where
  | expectedValue
  | expectedName
  | expectedColon
  | expectedComma
  | unterminatedText
  | controlCharacter
  | invalidEscape
  | invalidCodePoint
  | extraData
  | byteOrderMark
deriving DecidableEq, Repr

/-- The words for a fault, without its place. -/
def SyntaxFault.message : SyntaxFault → String
  | .expectedValue => "Expecting value"
  | .expectedName => "Expecting property name enclosed in double quotes"
  | .expectedColon => "Expecting ':' delimiter"
  | .expectedComma => "Expecting ',' delimiter"
  | .unterminatedText => "Unterminated string starting at"
  | .controlCharacter => "Invalid control character at"
  | .invalidEscape => "Invalid \\escape"
  | .invalidCodePoint => "Invalid \\uXXXX escape"
  | .extraData => "Extra data"
  | .byteOrderMark => "Unexpected UTF-8 BOM (decode using utf-8-sig)"

/-- Why a text could not be read: a fault of syntax, with the number of characters before it and its
line and column, or an integer of too many digits. -/
inductive ReadFault where
  | malformed (fault : SyntaxFault) (position line column : Nat)
  | tooLong (digits : Nat)
deriving DecidableEq, Repr

/-- The words for a fault of reading. -/
def ReadFault.message : ReadFault → String
  | .malformed fault position line column =>
    fault.message ++ ": line " ++ toString line ++ " column " ++ toString column ++ " (char " ++
      toString position ++ ")"
  | .tooLong digits => (Text.IntegerFault.tooLong digits).message

namespace Reader

/-- Where and why reading stopped: the characters left tell the place. -/
inductive Stop where
  | fault (fault : SyntaxFault) (left : List Char)
  | tooLong (digits : Nat)

/-- The blanks between the tokens of JSON. -/
def isSpace (c : Char) : Bool := c == ' ' || c == '\t' || c == '\n' || c == '\r'

/-- What is left after the blanks. -/
def skip (cs : List Char) : List Char := cs.dropWhile isSpace

/-- Whether a character is a decimal digit. -/
def isDigit (c : Char) : Bool := '0' ≤ c && c ≤ '9'

/-- What follows a word at the start of a list. -/
def after? : List Char → List Char → Option (List Char)
  | [], cs => some cs
  | _ :: _, [] => none
  | w :: ws, c :: cs => if w == c then after? ws cs else none

/-- The value of a hexadecimal digit. -/
def hexValue? (c : Char) : Option Nat :=
  if '0' ≤ c && c ≤ '9' then some (c.toNat - 48)
  else if 'a' ≤ c && c ≤ 'f' then some (c.toNat - 87)
  else if 'A' ≤ c && c ≤ 'F' then some (c.toNat - 55)
  else none

/-- The number that four hexadecimal digits write. -/
def codeUnit? (a b c d : Char) : Option Nat := do
  return 0x1000 * (← hexValue? a) + 0x100 * (← hexValue? b) + 0x10 * (← hexValue? c) + (← hexValue? d)

/-- Whether a code unit is the first half of a pair. -/
def isHighHalf (n : Nat) : Bool := 0xD800 ≤ n && n ≤ 0xDBFF

/-- Whether a code unit is the second half of a pair. -/
def isLowHalf (n : Nat) : Bool := 0xDC00 ≤ n && n ≤ 0xDFFF

/-- The character of a code unit; U+FFFD for a half without its other half, which is no character. -/
def unitChar (n : Nat) : Char := if isHighHalf n || isLowHalf n then Char.ofNat 0xFFFD else Char.ofNat n

/-- The character of a pair of halves. -/
def pairChar (high low : Nat) : Char := Char.ofNat (0x10000 + (high - 0xD800) * 0x400 + (low - 0xDC00))

/-- The character that a single letter after a backslash stands for. -/
def escape? : Char → Option Char
  | '"' => some '"'
  | '\\' => some '\\'
  | '/' => some '/'
  | 'b' => some '\x08'
  | 'f' => some '\x0c'
  | 'n' => some '\n'
  | 'r' => some '\r'
  | 't' => some '\t'
  | _ => none

/-- The second half of a pair, written as an escape at the start of a list. -/
def lowHalf? : List Char → Option (Nat × List Char)
  | '\\' :: 'u' :: a :: b :: c :: d :: next :: rest => do
    let low ← codeUnit? a b c d
    if isLowHalf low then some (low, next :: rest) else none
  | _ => none

/-- The character whose code point is written at the start of a list, in one escape or in two. The
digits of an escape are followed by a further character. -/
def codePoint? : List Char → Option (Char × List Char)
  | a :: b :: c :: d :: next :: rest => do
    let n ← codeUnit? a b c d
    match if isHighHalf n then lowHalf? (next :: rest) else none with
    | some (low, rest) => return (pairChar n low, rest)
    | none => return (unitChar n, next :: rest)
  | _ => none

theorem length_lt_of_lowHalf? {cs rest : List Char} {n : Nat} (h : lowHalf? cs = some (n, rest)) :
    rest.length < cs.length := by
  unfold lowHalf? at h
  split at h
  · simp only [Option.bind_eq_bind, Option.bind_eq_some_iff] at h
    obtain ⟨low, _, h⟩ := h
    split at h <;> simp_all
    obtain ⟨_, rfl⟩ := h
    simp only [List.length_cons]
    omega
  · simp at h

theorem length_lt_of_codePoint? {cs rest : List Char} {c : Char} (h : codePoint? cs = some (c, rest)) :
    rest.length < cs.length := by
  unfold codePoint? at h
  split at h
  · simp only [Option.bind_eq_bind, Option.bind_eq_some_iff] at h
    obtain ⟨n, _, h⟩ := h
    split at h
    · rename_i found
      split at found
      · have := length_lt_of_lowHalf? found
        simp_all only [Option.pure_def, Option.some.injEq, Prod.mk.injEq, List.length_cons]
        omega
      · simp at found
    · simp only [Option.pure_def, Option.some.injEq, Prod.mk.injEq] at h
      obtain ⟨_, rfl⟩ := h
      simp only [List.length_cons]
      omega
  · simp at h

/-- The characters of a text up to its closing quote, in reverse after those already read, and what
follows the quote. -/
def textBody (opening : List Char) (read : List Char) (cs : List Char) :
    Except Stop (List Char × List Char) :=
  match cs with
  | [] => .error (.fault .unterminatedText opening)
  | '"' :: rest => .ok (read, rest)
  | ['\\'] => .error (.fault .unterminatedText opening)
  | '\\' :: 'u' :: rest =>
    match _h : codePoint? rest with
    | none => .error (.fault .invalidCodePoint ('u' :: rest))
    | some (c, rest') => textBody opening (c :: read) rest'
  | '\\' :: c :: rest =>
    match escape? c with
    | none => .error (.fault .invalidEscape ('\\' :: c :: rest))
    | some e => textBody opening (e :: read) rest
  | c :: rest =>
    if c.toNat < 0x20 then .error (.fault .controlCharacter (c :: rest))
    else textBody opening (c :: read) rest
termination_by cs.length
decreasing_by
  · have := length_lt_of_codePoint? _h
    simp only [List.length_cons]
    omega
  · simp only [List.length_cons]
    omega
  · simp only [List.length_cons]
    omega

/-- The digits at the start of a list. -/
def digits (cs : List Char) : List Char := cs.takeWhile isDigit

/-- What follows the digits at the start of a list. -/
def afterDigits (cs : List Char) : List Char := cs.dropWhile isDigit

/-- The number that decimal digits write. -/
def decimalValue (ds : List Char) : Nat := Text.ofDigits (ds.map fun d => d.toNat - 48)

/-- The integer digits of a number: a zero alone, or a run of digits that starts otherwise. -/
def wholeDigits? : List Char → Option (List Char × List Char)
  | [] => none
  | c :: rest =>
    if c == '0' then some ([c], rest)
    else if isDigit c then some (c :: digits rest, afterDigits rest)
    else none

/-- The digits after a decimal point, and what follows them; a point without a digit is left. -/
def fraction : List Char → List Char × List Char
  | '.' :: d :: rest =>
    if isDigit d then (d :: digits rest, afterDigits rest) else ([], '.' :: d :: rest)
  | cs => ([], cs)

/-- The exponent of a number, and what follows it; a mark without a digit is left. -/
def exponent : List Char → Option Int × List Char
  | [] => (none, [])
  | e :: rest =>
    if e == 'e' || e == 'E' then
      match Text.signAndRest rest with
      | (negative, d :: more) =>
        if isDigit d then
          let n : Int := decimalValue (d :: digits more)
          (some (if negative then -n else n), afterDigits more)
        else (none, e :: rest)
      | (_, []) => (none, e :: rest)
    else (none, e :: rest)

/-- The value of a number that is made up of its parts: a floating-point number if it has a fraction
or an exponent, an integer otherwise. -/
def numberOf (negative : Bool) (whole part : List Char) (power : Option Int) : Except Stop Json :=
  if part.isEmpty && power.isNone then
    if Text.digitLimit < whole.length then .error (.tooLong whole.length)
    else
      let n : Int := decimalValue whole
      .ok (.int (if negative then -n else n))
  else
    .ok (.float (Binary64.ofDecimal negative (decimalValue (whole ++ part)) (power.getD 0 - part.length)))

/-- The number without a sign at the start of a list, if there is one, and what follows it. -/
def unsigned? (negative : Bool) (cs : List Char) : Option (Except Stop Json × List Char) := do
  let (whole, rest) ← wholeDigits? cs
  let (part, rest) := fraction rest
  let (power, rest) := exponent rest
  return (numberOf negative whole part power, rest)

/-- The number at the start of a list, if there is one, and what follows it. -/
def number? : List Char → Option (Except Stop Json × List Char)
  | '-' :: rest => unsigned? true rest
  | cs => unsigned? false cs

/-- The words that stand for a value. -/
def words : List (List Char × Json) := [
  (['n', 'u', 'l', 'l'], .null),
  (['t', 'r', 'u', 'e'], .bool true),
  (['f', 'a', 'l', 's', 'e'], .bool false),
  (['N', 'a', 'N'], .float Binary64.nan),
  (['I', 'n', 'f', 'i', 'n', 'i', 't', 'y'], .float (Binary64.infinity false)),
  (['-', 'I', 'n', 'f', 'i', 'n', 'i', 't', 'y'], .float (Binary64.infinity true))]

/-- The word or number at the start of a list. -/
def scalar (cs : List Char) : Except Stop (Json × List Char) :=
  match words.findSome? fun w => (after? w.1 cs).map ((w.2, ·)) with
  | some found => .ok found
  | none =>
    match number? cs with
    | some (.ok x, rest) => .ok (x, rest)
    | some (.error stop, _) => .error stop
    | none => .error (.fault .expectedValue cs)

theorem length_skip_le (cs : List Char) : (skip cs).length ≤ cs.length :=
  (List.dropWhile_sublist isSpace).length_le

theorem length_after? {word cs rest : List Char} (h : after? word cs = some rest) :
    rest.length + word.length = cs.length := by
  induction word generalizing cs with
  | nil => simp_all [after?]
  | cons w ws ih =>
    cases cs with
    | nil => simp [after?] at h
    | cons c cs =>
      simp only [after?] at h
      split at h
      · have := ih h
        simp only [List.length_cons]
        omega
      · simp at h

theorem length_lt_of_textBody {opening read cs read' rest : List Char}
    (h : textBody opening read cs = .ok (read', rest)) : rest.length < cs.length := by
  fun_induction textBody opening read cs with
  | case1 => simp at h
  | case2 =>
    simp only [Except.ok.injEq, Prod.mk.injEq] at h
    simp [h.2]
  | case3 => simp at h
  | case4 => simp at h
  | case5 _ _ _ _ shorter ih =>
    have := length_lt_of_codePoint? shorter
    have := ih h
    simp only [List.length_cons]
    omega
  | case6 => simp at h
  | case7 _ _ _ _ _ _ ih =>
    have := ih h
    simp only [List.length_cons]
    omega
  | case8 => simp at h
  | case9 _ _ _ _ _ _ _ _ ih =>
    have := ih h
    simp only [List.length_cons]
    omega

theorem length_afterDigits_le (cs : List Char) : (afterDigits cs).length ≤ cs.length :=
  (List.dropWhile_sublist isDigit).length_le

theorem length_lt_of_wholeDigits? {cs ds rest : List Char} (h : wholeDigits? cs = some (ds, rest)) :
    rest.length < cs.length := by
  cases cs with
  | nil => simp [wholeDigits?] at h
  | cons c cs =>
    have := length_afterDigits_le cs
    simp only [wholeDigits?] at h
    split at h
    · simp_all
    · split at h
      · simp only [Option.some.injEq, Prod.mk.injEq] at h
        rw [← h.2, List.length_cons]
        omega
      · simp at h

theorem length_fraction_le (cs : List Char) : (fraction cs).2.length ≤ cs.length := by
  unfold fraction
  split
  · rename_i d rest
    have := length_afterDigits_le rest
    split
    · simp only [List.length_cons]
      omega
    · simp
  · simp

theorem length_signAndRest_le (cs : List Char) : (Text.signAndRest cs).2.length ≤ cs.length := by
  unfold Text.signAndRest
  split <;> simp

theorem length_exponent_le (cs : List Char) : (exponent cs).2.length ≤ cs.length := by
  unfold exponent
  split
  · simp
  · rename_i e rest
    split
    · have signed := length_signAndRest_le rest
      split
      · rename_i d more found
        have := length_afterDigits_le more
        rw [found, List.length_cons] at signed
        split
        · simp only [List.length_cons]
          omega
        · simp
      · simp
    · simp

theorem length_lt_of_unsigned? {negative : Bool} {cs rest : List Char} {x : Except Stop Json}
    (h : unsigned? negative cs = some (x, rest)) : rest.length < cs.length := by
  simp only [unsigned?, Option.bind_eq_bind, Option.bind_eq_some_iff, Option.pure_def,
    Option.some.injEq, Prod.mk.injEq] at h
  obtain ⟨⟨whole, left⟩, found, _, rfl⟩ := h
  have first := length_lt_of_wholeDigits? found
  have second := length_fraction_le left
  have third := length_exponent_le (fraction left).2
  show (exponent (fraction left).2).2.length < cs.length
  omega

theorem length_lt_of_number? {cs rest : List Char} {x : Except Stop Json}
    (h : number? cs = some (x, rest)) : rest.length < cs.length := by
  unfold number? at h
  split at h
  · have := length_lt_of_unsigned? h
    simp only [List.length_cons]
    omega
  · exact length_lt_of_unsigned? h

theorem length_lt_of_scalar {cs rest : List Char} {x : Json} (h : scalar cs = .ok (x, rest)) :
    rest.length < cs.length := by
  unfold scalar at h
  split at h
  · rename_i found
    simp only [Except.ok.injEq] at h
    subst h
    obtain ⟨w, member, hit⟩ := List.exists_of_findSome?_eq_some found
    obtain ⟨left, hit, same⟩ := Option.map_eq_some_iff.1 hit
    have length := length_after? hit
    have nonempty : 0 < w.1.length := by
      simp only [words, List.mem_cons, List.not_mem_nil, or_false] at member
      rcases member with rfl | rfl | rfl | rfl | rfl | rfl <;> decide
    have : left = rest := congrArg Prod.snd same
    subst this
    omega
  · split at h
    · rename_i found
      simp only [Except.ok.injEq, Prod.mk.injEq] at h
      rw [← h.2]
      exact length_lt_of_number? found
    · simp at h
    · simp at h

/-- What is left after a part of a list was read: a shorter list. -/
abbrev Rest (cs : List Char) := { rest : List Char // rest.length < cs.length }

/-- The next character that is not blank, and what follows it. -/
def next? (cs : List Char) : Option (Char × Rest cs) :=
  match h : skip cs with
  | [] => none
  | c :: left => some (c, ⟨left, by
      have := length_skip_le cs
      rw [h] at this
      exact this⟩)

mutual

/-- The value at the start of a list. -/
def value (cs : List Char) : Except Stop (Json × Rest cs) :=
  match cs with
  | '"' :: rest =>
    match h : textBody ('"' :: rest) [] rest with
    | .error stop => .error stop
    | .ok (read, left) =>
      .ok (.str (String.ofList read.reverse), ⟨left, Nat.lt_succ_of_lt (length_lt_of_textBody h)⟩)
  | '[' :: rest =>
    match next? rest with
    | none => .error (.fault .expectedValue [])
    | some (c, ⟨left, h⟩) =>
      if c == ']' then .ok (.arr [], ⟨left, Nat.lt_succ_of_lt h⟩)
      else do
        let (xs, ⟨left, h⟩) ← items (c :: left)
        return (.arr xs, ⟨left, by simp only [List.length_cons] at *; omega⟩)
  | '\x7b' :: rest =>
    match next? rest with
    | none => .error (.fault .expectedName [])
    | some (c, ⟨left, h⟩) =>
      if c == '\x7d' then .ok (.obj [], ⟨left, Nat.lt_succ_of_lt h⟩)
      else do
        let (es, ⟨left, h⟩) ← entries (c :: left) []
        return (.obj es, ⟨left, by simp only [List.length_cons] at *; omega⟩)
  | cs =>
    match h : scalar cs with
    | .error stop => .error stop
    | .ok (x, left) => .ok (x, ⟨left, length_lt_of_scalar h⟩)
termination_by 2 * cs.length
decreasing_by
  all_goals simp only [List.length_cons] at *; omega

/-- The items of an array up to its closing bracket. -/
def items (cs : List Char) : Except Stop (List Json × Rest cs) := do
  let (x, ⟨left, h⟩) ← value cs
  match next? left with
  | none => .error (.fault .expectedComma [])
  | some (c, ⟨next, h⟩) =>
    if c == ']' then return ([x], ⟨next, by omega⟩)
    else if c == ',' then do
      have shorter := length_skip_le next
      let (xs, ⟨last, h⟩) ← items (skip next)
      return (x :: xs, ⟨last, by omega⟩)
    else .error (.fault .expectedComma (c :: next))
termination_by 2 * cs.length + 1
decreasing_by
  all_goals omega

/-- The entries of an object up to its closing brace, put into those already read. -/
def entries (cs : List Char) (read : List (String × Json)) :
    Except Stop (List (String × Json) × Rest cs) :=
  match cs with
  | '"' :: rest =>
    match named : textBody ('"' :: rest) [] rest with
    | .error stop => .error stop
    | .ok (name, afterName) =>
      have shorter := length_lt_of_textBody named
      match next? afterName with
      | none => .error (.fault .expectedColon [])
      | some (c, ⟨afterColon, h⟩) =>
        if c == ':' then do
          have colon := length_skip_le afterColon
          let (x, ⟨afterValue, h⟩) ← value (skip afterColon)
          let read := Entries.put (· == ·) (String.ofList name.reverse) x read
          match next? afterValue with
          | none => .error (.fault .expectedComma [])
          | some (c, ⟨next, h⟩) =>
            if c == '\x7d' then
              return (read, ⟨next, by simp only [List.length_cons]; omega⟩)
            else if c == ',' then do
              have comma := length_skip_le next
              let (es, ⟨last, h⟩) ← entries (skip next) read
              return (es, ⟨last, by simp only [List.length_cons]; omega⟩)
            else .error (.fault .expectedComma (c :: next))
        else .error (.fault .expectedColon (c :: afterColon))
  | cs => .error (.fault .expectedName cs)
termination_by 2 * cs.length
decreasing_by
  all_goals simp only [List.length_cons]; omega

end

/-- The place of a fault in a text: the characters before it, and its line and column, from one on. -/
def place (cs : List Char) (fault : SyntaxFault) (left : List Char) : ReadFault :=
  let position := cs.length - left.length
  let before := cs.take position
  let line := before.count '\n' + 1
  let column := (before.reverse.takeWhile (· != '\n')).length + 1
  .malformed fault position line column

/-- The value that makes up a whole list, blanks around it aside. -/
def document (cs : List Char) : Except Stop Json := do
  let (x, ⟨left, _⟩) ← value (skip cs)
  match skip left with
  | [] => return x
  | rest => .error (.fault .extraData rest)

end Reader

/-- The value that the characters of a text write. -/
def readChars (cs : List Char) : Except ReadFault Json :=
  match Reader.document cs with
  | .ok x => .ok x
  | .error (.fault fault left) => .error (Reader.place cs fault left)
  | .error (.tooLong digits) => .error (.tooLong digits)

/-- The value that a text writes. A text does not start with a byte order mark. -/
def read (s : String) : Except ReadFault Json :=
  match s.toList with
  | '\ufeff' :: _ => .error (.malformed .byteOrderMark 0 1 1)
  | cs => readChars cs

end Criteria.Json
