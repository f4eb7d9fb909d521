import Criteria.Document.Basic
import Criteria.Yaml.Token
import Criteria.Yaml.Word

/-!
Reading field files. A file is in a part of YAML: mappings and lists, of lines or in
brackets and braces, and plain words; comments stand after a hash. A file without any of
these says nothing. A place that is left empty holds null. Keys are scalars, which keep
their kind; of keys of one name the last one counts, at the place of the first. Each step
works on the tokens that are left.
-/
namespace Criteria.Yaml

/-- Whether a token stands after a place in lines, so that nothing stands there. -/
def Token.endsLine : Token → Bool
  | item | key | value | close => true
  | _ => false

/-- Whether a token stands after a place in brackets, so that nothing stands there. -/
def Token.endsPart : Token → Bool
  | value | comma | closeList | closeTable => true
  | _ => false

mutual

/-- The value that starts with the first token. -/
def node? (ts : List Token) : Option (Document × List Token) :=
  match ts with
  | .word cs :: rest => (wordValue? cs).map fun x => (.scalar x, rest)
  | .openMapping :: rest => entries? [] rest
  | .openItems :: rest => lineItems? [] rest
  | .openList :: rest => listItems? [] rest
  | .openTable :: rest => tableEntries? [] rest
  | _ => none
termination_by (ts.length, 0)

/-- The value of a key or after a key in a mapping of lines; null if nothing stands there. The items of
a list may stand at the column of the mapping. -/
def lineValue? (ts : List Token) : Option (Document × List Token) :=
  match ts with
  | [] => none
  | t :: rest =>
    if t = .item then besideItems? [] (t :: rest)
    else if t.endsLine then some (.null, t :: rest)
    else node? (t :: rest)
termination_by (ts.length, 2)

/-- The value of an item in a list of lines; null if nothing stands there. -/
def itemValue? (ts : List Token) : Option (Document × List Token) :=
  match ts with
  | [] => none
  | t :: rest => if t.endsLine then some (.null, t :: rest) else node? (t :: rest)
termination_by (ts.length, 1)

/-- The value of a key or after a key in brackets; null if nothing stands there. -/
def bracketValue? (ts : List Token) : Option (Document × List Token) :=
  match ts with
  | [] => none
  | t :: rest => if t.endsPart then some (.null, t :: rest) else node? (t :: rest)
termination_by (ts.length, 1)

/-- The rest of a mapping of lines after the entries already read. -/
def entries? (read : List (Scalar × Document)) (ts : List Token) : Option (Document × List Token) :=
  match ts with
  | .close :: rest => some (.mapping read, rest)
  | .key :: rest => do
    let (k, afterKey) ← lineValue? rest
    let name ← k.scalar?
    let (x, next) ← match afterKey with
      | .value :: afterValue =>
        if afterValue.length < rest.length + 1 then lineValue? afterValue else none
      | afterKey => some (.null, afterKey)
    if next.length < rest.length + 1 then entries? (Document.put name x read) next else none
  | _ => none
termination_by (ts.length, 0)

/-- The rest of a list of lines after the items already read, the last first. -/
def lineItems? (read : List Document) (ts : List Token) : Option (Document × List Token) :=
  match ts with
  | .close :: rest => some (.list read.reverse, rest)
  | .item :: rest => do
    let (x, next) ← itemValue? rest
    if next.length < rest.length + 1 then lineItems? (x :: read) next else none
  | _ => none
termination_by (ts.length, 0)

/-- The rest of a list of lines at the column of a mapping, after the items already read. It ends where
no further item stands. -/
def besideItems? (read : List Document) (ts : List Token) : Option (Document × List Token) :=
  match ts with
  | .item :: rest => do
    let (x, next) ← itemValue? rest
    if next.length < rest.length + 1 then besideItems? (x :: read) next else none
  | _ => some (.list read.reverse, ts)
termination_by (ts.length, 1)

/-- A key in brackets and its value. -/
def bracketEntry? (ts : List Token) : Option ((Scalar × Document) × List Token) := do
  let (k, afterKey) ← bracketValue? ts
  let name ← k.scalar?
  let (x, next) ← match afterKey with
    | .value :: afterValue => if afterValue.length < ts.length then bracketValue? afterValue else none
    | afterKey => some (.null, afterKey)
  return ((name, x), next)
termination_by (ts.length, 2)

/-- The rest of a list in brackets after the items already read: an item, or the end. -/
def listItems? (read : List Document) (ts : List Token) : Option (Document × List Token) :=
  match ts with
  | .closeList :: rest => some (.list read.reverse, rest)
  | .key :: rest => do
    let (e, next) ← bracketEntry? rest
    if next.length < rest.length + 1 then listRest? (.mapping [e] :: read) next else none
  | [] => none
  | t :: rest => do
    let (x, next) ← node? (t :: rest)
    if next.length < rest.length + 1 then listRest? (x :: read) next else none
termination_by (ts.length, 1)

/-- The rest of a list in brackets after an item: a comma, or the end. -/
def listRest? (read : List Document) (ts : List Token) : Option (Document × List Token) :=
  match ts with
  | .closeList :: rest => some (.list read.reverse, rest)
  | .comma :: rest => listItems? read rest
  | _ => none
termination_by (ts.length, 0)

/-- The rest of a mapping in braces after the entries already read: an entry, or the end. A value
without a key is a key without a value. -/
def tableEntries? (read : List (Scalar × Document)) (ts : List Token) : Option (Document × List Token) :=
  match ts with
  | .closeTable :: rest => some (.mapping read, rest)
  | .key :: rest => do
    let ((name, x), next) ← bracketEntry? rest
    if next.length < rest.length + 1 then tableRest? (Document.put name x read) next else none
  | [] => none
  | t :: rest => do
    let (k, next) ← node? (t :: rest)
    let name ← k.scalar?
    if next.length < rest.length + 1 then tableRest? (Document.put name .null read) next else none
termination_by (ts.length, 1)

/-- The rest of a mapping in braces after an entry: a comma, or the end. -/
def tableRest? (read : List (Scalar × Document)) (ts : List Token) : Option (Document × List Token) :=
  match ts with
  | .closeTable :: rest => some (.mapping read, rest)
  | .comma :: rest => tableEntries? read rest
  | _ => none
termination_by (ts.length, 0)

end

/-- The value of a document after its mark; null if nothing stands there. -/
def content? (ts : List Token) : Option (Document × List Token) :=
  match ts with
  | [] | .documentEnd :: _ => some (.null, ts)
  | _ => node? ts

/-- The document that tokens write; null if there are none. Nothing follows it but marks of its end. -/
def document? (ts : List Token) : Option Document := do
  let (x, rest) ← match ts with
    | [] => some (.null, [])
    | .documentStart :: rest => content? rest
    | ts => node? ts
  if rest.all (· == .documentEnd) then return x else none

/-- The document that a text writes; nothing if it is not of the format. -/
def read? (s : String) : Option Document := do document? (← tokens? s.toList)

end Criteria.Yaml
