/-!
The tokens of field files. Words and marks are read from the characters; where a word
turns out to be a key, because a colon follows it on its line, the mark of the key is put
before it afterwards. The columns at which mappings and lists of lines start decide where
they end. Between brackets and braces lines and columns do not count.
-/
namespace Criteria.Yaml

/-- A word, or a mark of the structure. -/
inductive Token where
  | word (cs : List Char)
  | key
  | value
  /-- The start of a mapping of lines. -/
  | openMapping
  /-- The start of a list of lines. -/
  | openItems
  /-- The end of a mapping or a list of lines. -/
  | close
  | item
  | openList
  | closeList
  | openTable
  | closeTable
  | comma
  | documentStart
  | documentEnd
deriving DecidableEq, Repr

/-- A place in a text: its line, its column, and the number of characters before it. -/
structure Place where
  line : Nat
  column : Nat
  index : Nat
deriving DecidableEq, Repr

/-- Whether a character ends a line. -/
def isBreak (c : Char) : Bool := c == '\n' || c == '\u0085'

/-- The place after a character. -/
def Place.after (p : Place) (c : Char) : Place :=
  if isBreak c then ⟨p.line + 1, 0, p.index + 1⟩ else ⟨p.line, p.column + 1, p.index + 1⟩

/-- Whether a character, or the end of the text, sets off a mark before it. -/
def isSetOff (next : Option Char) : Bool :=
  match next with
  | none => true
  | some c => c == ' ' || c == '\t' || isBreak c

/-- The place from which a key may have started, and the number of tokens before it. A key is required
where nothing else can stand. -/
structure PossibleKey where
  place : Place
  required : Bool
  tokens : Nat
deriving DecidableEq, Repr

/-- How far a text was read. -/
structure Scan where
  left : List Char
  place : Place
  /-- The columns of the open mappings and lists of lines, the innermost first. -/
  columns : List Nat
  /-- The key that may have started inside of the innermost bracket. -/
  possible : Option PossibleKey
  /-- The keys that may have started outside of it, one for each open bracket. -/
  outer : List (Option PossibleKey)
  /-- Whether a key can start here. -/
  keyAllowed : Bool
  /-- The tokens read, the last first. -/
  tokens : List Token

namespace Scan

/-- The start of a text. A byte order mark there is left out. -/
def ofChars (cs : List Char) : Scan where
  left := match cs with
    | '\ufeff' :: rest => rest
    | cs => cs
  place := ⟨0, 0, 0⟩
  columns := []
  possible := none
  outer := []
  keyAllowed := true
  tokens := []

/-- Whether a bracket is open. -/
def inBrackets (s : Scan) : Bool := !s.outer.isEmpty

/-- The first column at which the innermost mapping or list of lines can hold another one. -/
def inside (s : Scan) : Nat :=
  match s.columns with
  | [] => 0
  | column :: _ => column + 1

/-- A token more. -/
def push (s : Scan) (t : Token) : Scan := { s with tokens := t :: s.tokens }

/-- A mapping or a list of lines that starts at a column, if it lies inside of the innermost one. -/
def opened (s : Scan) (column : Nat) (t : Token) : Scan :=
  if s.inside ≤ column then { s.push t with columns := column :: s.columns } else s

/-- The end of the mappings and lists of lines for which `ends` holds of the column. -/
def closed (s : Scan) (ends : Nat → Bool) : Scan :=
  if s.inBrackets then s
  else
    { s with
      columns := s.columns.dropWhile ends
      tokens := (s.columns.takeWhile ends).map (fun _ => .close) ++ s.tokens }

/-- Gives up the key that may have started; a required one cannot be given up. -/
def dropKey? (s : Scan) : Option Scan :=
  match s.possible with
  | some k => if k.required then none else some { s with possible := none }
  | none => some s

/-- Notes that a key may start here. -/
def noteKey? (s : Scan) : Option Scan :=
  if s.keyAllowed then do
    let s ← s.dropKey?
    let required := !s.inBrackets && s.columns.head? == some s.place.column
    return { s with possible := some ⟨s.place, required, s.tokens.length⟩ }
  else some s

/-- The longest key. -/
def longestKey : Nat := 1024

/-- A key that may have started, unless it is too far away: a key ends on its line. Nothing is returned
if it was required. -/
def near? (place : Place) : Option PossibleKey → Option (Option PossibleKey)
  | none => some none
  | some k =>
    if k.place.line != place.line || longestKey < place.index - k.place.index then
      if k.required then none else some none
    else some (some k)

/-- The place and the characters after blanks and comments, and whether a line ended among them. -/
def afterBlanks (comment : Bool) (place : Place) (broken : Bool) : List Char → Place × Bool × List Char
  | [] => (place, broken, [])
  | c :: rest =>
    if isBreak c then afterBlanks false (place.after c) true rest
    else if comment || c == ' ' then afterBlanks comment (place.after c) broken rest
    else if c == '#' then afterBlanks true (place.after c) broken rest
    else (place, broken, c :: rest)

/-- The next place at which a token can start. -/
def next? (s : Scan) : Option Scan := do
  let (place, broken, left) := afterBlanks false s.place false s.left
  let possible ← near? place s.possible
  let outer ← s.outer.mapM (near? place)
  let s : Scan := { s with
    left := left
    place := place
    possible := possible
    outer := outer
    keyAllowed := s.keyAllowed || (broken && !s.inBrackets) }
  return s.closed (place.column < ·)

/-- Goes past the next character. -/
def forward (s : Scan) : Scan :=
  match s.left with
  | [] => s
  | c :: rest => { s with left := rest, place := s.place.after c }

/-- Whether characters start with a mark of a document: three times the same character, set off. -/
def isMarker (mark : Char) : List Char → Bool
  | a :: b :: c :: rest => a == mark && b == mark && c == mark && isSetOff rest.head?
  | _ => false

/-- A mark of a document. -/
def marker? (s : Scan) (t : Token) : Option Scan := do
  let s ← (s.closed fun _ => true).dropKey?
  return { s.forward.forward.forward.push t with keyAllowed := false }

/-- An opening bracket. It may start a key, and keys may start after it. -/
def openBracket? (s : Scan) (t : Token) : Option Scan := do
  let s ← s.noteKey?
  return { s.forward.push t with possible := none, outer := s.possible :: s.outer, keyAllowed := true }

/-- A closing bracket. -/
def closeBracket? (s : Scan) (t : Token) : Option Scan := do
  let s ← s.dropKey?
  match s.outer with
  | [] => none
  | possible :: outer =>
    return { s.forward.push t with possible := possible, outer := outer, keyAllowed := false }

/-- A comma. Keys may start after it. -/
def comma? (s : Scan) : Option Scan := do
  let s ← s.dropKey?
  return { s.forward.push .comma with keyAllowed := true }

/-- A dash before an item of a list of lines. Keys may start after it. -/
def item? (s : Scan) : Option Scan := do
  if s.inBrackets || !s.keyAllowed then none
  else
    let s ← (s.opened s.place.column .openItems).dropKey?
    return { s.forward.push .item with keyAllowed := true }

/-- A colon after a key. The mark of the key goes before the tokens of the key, and before it the start
of a mapping if the key is its first. -/
def value? (s : Scan) : Option Scan := do
  let k ← s.possible
  let count := s.tokens.length - k.tokens
  let before : Scan := { s with tokens := s.tokens.drop count }
  let marked := (if s.inBrackets then before else before.opened k.place.column .openMapping).push .key
  let s := { marked with tokens := s.tokens.take count ++ marked.tokens }
  return { s.forward.push .value with possible := none, keyAllowed := false }

/-- The blanks since the last character of a word. -/
inductive Gap where
  | none
  | spaces (count : Nat)
  | breaks (count : Nat)
deriving DecidableEq, Repr

namespace Gap

/-- A space more. Spaces around the end of a line do not count. -/
def space : Gap → Gap
  | none => spaces 1
  | spaces n => spaces (n + 1)
  | breaks n => breaks n

/-- The end of a line more. -/
def lineBreak : Gap → Gap
  | breaks n => breaks (n + 1)
  | _ => breaks 1

/-- Whether a line ended. -/
def isBroken : Gap → Bool
  | breaks _ => true
  | _ => false

/-- What stands for blanks inside of a word: the end of one line is a space, and of several lines all
but one stay. -/
def text : Gap → List Char
  | none => []
  | spaces n => List.replicate n ' '
  | breaks 1 => [' ']
  | breaks n => List.replicate (n - 1) '\n'

end Gap

/-- Whether a character is a comma, a bracket or a brace. -/
def isPunctuation (c : Char) : Bool := [',', '[', ']', '\x7b', '\x7d'].contains c

/-- Whether a character cannot stand in a word before another one. -/
def stopsWord (brackets : Bool) (c : Char) (next : Option Char) : Bool :=
  c == '\t' || (c == ':' && (isSetOff next || (brackets && next.any isPunctuation))) ||
    (brackets && (c == '?' || isPunctuation c))

/-- Whether a word ends before characters that are not blank: at a character that it cannot hold, at a
comment, and on another line at a column outside or at a mark of a document. -/
def endsWord (brackets : Bool) (column : Nat) (gap : Gap) (place : Place) (c : Char)
    (rest : List Char) : Bool :=
  stopsWord brackets c rest.head? || (gap != .none && c == '#') ||
    (gap.isBroken && ((!brackets && place.column < column) ||
      (place.column == 0 && (isMarker '-' (c :: rest) || isMarker '.' (c :: rest)))))

/-- The characters of a word after those already read, the last first; the blanks after it; and the
place and the characters that follow. -/
def readWord (brackets : Bool) (column : Nat) (read : List Char) (gap : Gap) (place : Place) :
    List Char → List Char × Gap × Place × List Char
  | [] => (read, gap, place, [])
  | c :: rest =>
    if isBreak c then readWord brackets column read gap.lineBreak (place.after c) rest
    else if c == ' ' then readWord brackets column read gap.space (place.after c) rest
    else if endsWord brackets column gap place c rest then (read, gap, place, c :: rest)
    else readWord brackets column (c :: gap.text ++ read) .none (place.after c) rest

/-- A word, which may be a key. -/
def word? (s : Scan) : Option Scan := do
  let s ← s.noteKey?
  let (read, gap, place, left) := readWord s.inBrackets s.inside [] .none s.place s.left
  return { s.push (.word read.reverse) with left := left, place := place, keyAllowed := gap.isBroken }

/-- The marks that start no word; those without a rule of their own are not taken in field files. -/
def marks : List Char :=
  ['\t', '-', '?', ':', ',', '[', ']', '\x7b', '\x7d', '#', '&', '*', '!', '|', '>', '\'', '"', '%', '@',
    Char.ofNat 0x60]

/-- Whether a word can start with a character. -/
def startsWord (brackets : Bool) (c : Char) (next : Option Char) : Bool :=
  !marks.contains c || (!isSetOff next && (c == '-' || (!brackets && (c == '?' || c == ':'))))

/-- The token that starts with a character. -/
def token? (s : Scan) (c : Char) (rest : List Char) : Option Scan :=
  if s.place.column == 0 && isMarker '-' (c :: rest) then s.marker? .documentStart
  else if s.place.column == 0 && isMarker '.' (c :: rest) then s.marker? .documentEnd
  else if c == '[' then s.openBracket? .openList
  else if c == '\x7b' then s.openBracket? .openTable
  else if c == ']' then s.closeBracket? .closeList
  else if c == '\x7d' then s.closeBracket? .closeTable
  else if c == ',' then s.comma?
  else if c == '-' && isSetOff rest.head? then s.item?
  else if c == ':' && (s.inBrackets || isSetOff rest.head?) then s.value?
  else if startsWord s.inBrackets c rest.head? then s.word?
  else none

/-- The tokens of a text, unless it is malformed. Each token takes at least one character. -/
def tokens? (s : Scan) : Option (List Token) :=
  match s.next? with
  | none => none
  | some start =>
    match start.left with
    | [] => (start.closed fun _ => true).dropKey?.map (·.tokens.reverse)
    | c :: rest =>
      match start.token? c rest with
      | none => none
      | some s' => if s'.left.length < s.left.length then s'.tokens? else none
termination_by s.left.length

end Scan

/-- Whether a character can stand in a field file. -/
def isAllowed (c : Char) : Bool :=
  let n := c.toNat
  n == 0x09 || n == 0x0A || n == 0x0D || (0x20 ≤ n && n ≤ 0x7E) || n == 0x85 ||
    (0xA0 ≤ n && n ≤ 0xD7FF) || (0xE000 ≤ n && n ≤ 0xFFFD) || 0x10000 ≤ n

/-- The tokens that characters write, unless they are malformed. -/
def tokens? (cs : List Char) : Option (List Token) :=
  if cs.all isAllowed then (Scan.ofChars cs).tokens? else none

end Criteria.Yaml
