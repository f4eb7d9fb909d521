import Criteria.Document.Basic

/-!
Documents in messages. `literal` writes a document so that the kinds of its scalars, the
names among them, can be seen: texts are quoted, lists stand in brackets and entries in
braces. `display` is the same but for a text, which stands for itself. A JSON value reads
as the document that it is (`literal_ofJson`, `display_ofJson`).
-/
namespace Criteria.Document

mutual

/-- A document with the kinds of its scalars visible. -/
def literal : Document → String
  | scalar x => x.literal
  | list items => "[" ++ literals items ++ "]"
  | mapping entries => "\x7b" ++ entryLiterals entries ++ "\x7d"

/-- Documents, with commas between them. -/
def literals : List Document → String
  | [] => ""
  | [x] => literal x
  | x :: y :: rest => literal x ++ ", " ++ literals (y :: rest)

/-- Entries, with commas between them. -/
def entryLiterals : List (Scalar × Document) → String
  | [] => ""
  | [(k, x)] => k.literal ++ ": " ++ literal x
  | (k, x) :: y :: rest => k.literal ++ ": " ++ literal x ++ ", " ++ entryLiterals (y :: rest)

end

/-- A document as it reads in running text. -/
def display : Document → String
  | scalar x => x.display
  | x => literal x

mutual

theorem literal_ofJson : ∀ x : Json, (ofJson x).literal = x.literal
  | .null => rfl
  | .bool _ => rfl
  | .int _ => rfl
  | .float _ => rfl
  | .str _ => rfl
  | .arr items => by simp [ofJson, literal, Json.literal, literals_ofItems items]
  | .obj entries => by simp [ofJson, literal, Json.literal, entryLiterals_ofEntries entries]

theorem literals_ofItems : ∀ items : List Json, literals (ofItems items) = Json.literals items
  | [] => rfl
  | [x] => by simp [ofItems, literals, Json.literals, literal_ofJson x]
  | x :: y :: rest => by
    have tail := literals_ofItems (y :: rest)
    simp only [ofItems] at tail
    simp [ofItems, literals, Json.literals, literal_ofJson x, tail]

theorem entryLiterals_ofEntries :
    ∀ entries : List (String × Json), entryLiterals (ofEntries entries) = Json.entryLiterals entries
  | [] => rfl
  | [(k, x)] => by
    simp [ofEntries, entryLiterals, Json.entryLiterals, literal_ofJson x, Scalar.literal, Scalar.toJson,
      Json.literal]
  | (k, x) :: (l, y) :: rest => by
    have tail := entryLiterals_ofEntries ((l, y) :: rest)
    simp only [ofEntries] at tail
    simp [ofEntries, entryLiterals, Json.entryLiterals, literal_ofJson x, Scalar.literal, Scalar.toJson,
      Json.literal, tail]

end

theorem display_ofJson (x : Json) : (ofJson x).display = x.display := by
  cases x with
  | arr items => simpa [ofJson, display, Json.display] using literal_ofJson (.arr items)
  | obj entries => simpa [ofJson, display, Json.display] using literal_ofJson (.obj entries)
  | _ => rfl

end Criteria.Document
