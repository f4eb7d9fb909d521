import Criteria.Document.Scalar
import Criteria.Entries

/-!
Documents: what a field file says. A document is a scalar, a list or a mapping, and the
names of a mapping are scalars; a JSON value is a document whose names are all texts.
-/
namespace Criteria

/-- What a field file says, or a part of it. -/
inductive Document where
  | scalar (x : Scalar)
  | list (items : List Document)
  | mapping (entries : List (Scalar × Document))
deriving Repr, Inhabited

namespace Document

mutual

/-- Whether two documents are equal: same kind, same content, entries in the same order. -/
def decEq : (x y : Document) → Decidable (x = y)
  | scalar a, scalar b => if h : a = b then isTrue (by rw [h]) else isFalse (by simp [h])
  | list xs, list ys =>
    match decEqItems xs ys with
    | isTrue h => isTrue (by rw [h])
    | isFalse h => isFalse (by simp [h])
  | mapping xs, mapping ys =>
    match decEqEntries xs ys with
    | isTrue h => isTrue (by rw [h])
    | isFalse h => isFalse (by simp [h])
  | scalar _, list _ => isFalse nofun
  | scalar _, mapping _ => isFalse nofun
  | list _, scalar _ => isFalse nofun
  | list _, mapping _ => isFalse nofun
  | mapping _, scalar _ => isFalse nofun
  | mapping _, list _ => isFalse nofun

/-- Whether two lists of documents are equal. -/
def decEqItems : (xs ys : List Document) → Decidable (xs = ys)
  | [], [] => isTrue rfl
  | [], _ :: _ => isFalse nofun
  | _ :: _, [] => isFalse nofun
  | x :: xs, y :: ys =>
    match decEq x y, decEqItems xs ys with
    | isTrue h, isTrue h' => isTrue (by rw [h, h'])
    | isFalse h, _ => isFalse (by simp [h])
    | _, isFalse h => isFalse (by simp [h])

/-- Whether two lists of entries are equal. -/
def decEqEntries : (xs ys : List (Scalar × Document)) → Decidable (xs = ys)
  | [], [] => isTrue rfl
  | [], _ :: _ => isFalse nofun
  | _ :: _, [] => isFalse nofun
  | (k, x) :: xs, (l, y) :: ys =>
    if h : k = l then
      match decEq x y, decEqEntries xs ys with
      | isTrue h', isTrue h'' => isTrue (by rw [h, h', h''])
      | isFalse h', _ => isFalse (by simp [h'])
      | _, isFalse h' => isFalse (by simp [h'])
    else isFalse (by simp [h])

end

instance : DecidableEq Document := decEq

mutual

/-- A JSON value as a document. -/
def ofJson : Json → Document
  | .null => scalar .null
  | .bool b => scalar (.bool b)
  | .int n => scalar (.int n)
  | .float x => scalar (.float x)
  | .str s => scalar (.text s)
  | .arr items => list (ofItems items)
  | .obj entries => mapping (ofEntries entries)

/-- JSON values as documents. -/
def ofItems : List Json → List Document
  | [] => []
  | x :: rest => ofJson x :: ofItems rest

/-- The entries of an object as those of a mapping. -/
def ofEntries : List (String × Json) → List (Scalar × Document)
  | [] => []
  | (k, x) :: rest => (k, ofJson x) :: ofEntries rest

end

/-- The document without content. -/
def null : Document := scalar .null

/-- Whether a document counts as none given: null, false, zero, or an empty text, list or mapping. -/
def isVacant : Document → Bool
  | scalar x => x.toJson.isVacant
  | list items => items.isEmpty
  | mapping entries => entries.isEmpty

/-- The text that a document is, if it is one. -/
def text? : Document → Option String
  | scalar (.text s) => some s
  | _ => none

/-- The scalar that a document is, if it is one. -/
def scalar? : Document → Option Scalar
  | scalar x => some x
  | _ => none

/-- The members of a document that can be gone through: the items of a list, the characters of a text,
the names of a mapping. -/
def members? : Document → Option (List Document)
  | scalar (.text s) => some (s.toList.map fun c => scalar (.text (String.singleton c)))
  | scalar _ => none
  | list items => some items
  | mapping entries => some (entries.map fun e => scalar e.1)

/-- The entries with one more; of entries with the same name the last one counts, at the place of the
first. -/
def put (name : Scalar) (x : Document) (entries : List (Scalar × Document)) : List (Scalar × Document) :=
  Entries.put Scalar.isSameName name x entries

end Document

end Criteria
