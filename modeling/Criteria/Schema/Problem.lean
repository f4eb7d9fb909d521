import Criteria.Json.Text
import Criteria.Schema.Basic
import Criteria.Text.Order

/-!
What is wrong with the shape of a value. A problem is a demand that is not met and the
path to the place that does not meet it. `problems` finds all of them, in the order of
the keywords and down the value; a report lists them in the order of their paths.
-/
namespace Criteria.Schema

/-- A step into a value: to an entry or to an item. -/
inductive Step where
  | entry (name : String)
  | item (index : Nat)
deriving DecidableEq, Repr

/-- A step in a path. -/
def Step.text : Step → String
  | entry name => "." ++ name
  | item index => "[" ++ toString index ++ "]"

/-- The way to a place in a value. -/
abbrev Path := List Step

/-- A path as text. -/
def Path.text (p : Path) : String := "$" ++ String.join (p.map Step.text)

/-- A demand that is not met. -/
inductive Cause where
  | kind (value : Json) (allowed : List Kind)
  | unexpected (names : List String)
  | missing (name : String)
  | empty (value : Json)
  | choice (value : Json) (texts : List String)
  | below (value : Json) (n : Nat)
deriving DecidableEq, Repr

/-- Texts in quotes, with commas between them. -/
def quotedTexts (texts : List String) : String := ", ".intercalate (texts.map Text.quoted)

/-- The words for a demand that is not met. -/
def Cause.message : Cause → String
  | kind value allowed => value.literal ++ " is not of type " ++ quotedTexts (allowed.map (·.name))
  | unexpected names =>
    "Additional properties are not allowed (" ++ quotedTexts names ++
      (if names.length = 1 then " was" else " were") ++ " unexpected)"
  | missing name => Text.quoted name ++ " is a required property"
  | empty value => value.literal ++ " should be non-empty"
  | choice value texts => value.literal ++ " is not one of [" ++ quotedTexts texts ++ "]"
  | below value n => value.literal ++ " is less than the minimum of " ++ toString n

/-- A place, and a demand that is not met there. -/
structure Problem where
  path : Path
  cause : Cause
deriving DecidableEq, Repr

/-- The words for a problem. -/
def Problem.message (p : Problem) : String := p.path.text ++ ": " ++ p.cause.message

/-- What finds the problems of a value of which a shape is expected. The path leads to the value. -/
abbrev Check := Shape → Path → List Problem

/-- The names of entries that have no shape. -/
def unexpectedNames (s : Shape) (names : List String) : List String :=
  names.filter fun name => ((s.entries).lookup name).isNone

/-- Whether a value is a number below the given one. -/
def isBelow (n : Nat) : Json → Bool
  | .int i => i < n
  | .float x => x.ltNat n
  | _ => false

/-- The problems of a value with one keyword of a shape, given the checks of its entries and items. -/
def keywordProblems (x : Json) (entries : List (String × Check)) (items : List Check) (s : Shape)
    (path : Path) : Keyword → List Problem
  | .kinds allowed => if allowed.any (·.holds x) then [] else [⟨path, .kind x allowed⟩]
  | .closed =>
    match unexpectedNames s (entries.map (·.1)) with
    | [] => []
    | names => [⟨path, .unexpected (Text.sortBy id names)⟩]
  | .entries shapes =>
    shapes.flatMap fun (name, shape) =>
      match entries.lookup name with
      | some check => check shape (path ++ [.entry name])
      | none => []
  | .required names =>
    match x with
    | .obj _ =>
      names.filterMap fun name =>
        if (entries.lookup name).isSome then none else some ⟨path, .missing name⟩
    | _ => []
  | .items shape =>
    items.zipIdx.flatMap fun (check, index) => check shape (path ++ [.item index])
  | .nonEmpty => if x = .str "" then [⟨path, .empty x⟩] else []
  | .choice texts => if texts.any (fun text => x = .str text) then [] else [⟨path, .choice x texts⟩]
  | .minimum n => if isBelow n x then [⟨path, .below x n⟩] else []

/-- The problems of a value with a shape, given the checks of its entries and items. -/
def shapeProblems (x : Json) (entries : List (String × Check)) (items : List Check) : Check :=
  fun s path => s.keywords.flatMap (keywordProblems x entries items s path)

mutual

/-- The problems of a value. -/
def problems : Json → Check
  | .obj entries => shapeProblems (.obj entries) (entryChecks entries) []
  | .arr items => shapeProblems (.arr items) [] (itemChecks items)
  | .null => shapeProblems .null [] []
  | .bool b => shapeProblems (.bool b) [] []
  | .int n => shapeProblems (.int n) [] []
  | .float x => shapeProblems (.float x) [] []
  | .str s => shapeProblems (.str s) [] []

/-- The checks of entries. -/
def entryChecks : List (String × Json) → List (String × Check)
  | [] => []
  | (name, x) :: rest => (name, problems x) :: entryChecks rest

/-- The checks of items. -/
def itemChecks : List Json → List Check
  | [] => []
  | x :: rest => problems x :: itemChecks rest

end

/-- The problems of a value of which a shape is expected, in the order of their paths. -/
def report (s : Shape) (x : Json) : List Problem := Text.sortBy (·.path.text) (problems x s [])

theorem lookup_entryChecks (name : String) (entries : List (String × Json)) :
    (entryChecks entries).lookup name = (entries.lookup name).map problems := by
  induction entries with
  | nil => rfl
  | cons e rest ih =>
    obtain ⟨k, x⟩ := e
    simp only [entryChecks, List.lookup_cons]
    split <;> simp [ih]

theorem itemChecks_eq_map (items : List Json) : itemChecks items = items.map problems := by
  induction items with
  | nil => rfl
  | cons x rest ih => simp [itemChecks, ih]

theorem report_eq_nil_iff {s : Shape} {x : Json} : report s x = [] ↔ problems x s [] = [] := by
  unfold report
  rw [← List.length_eq_zero_iff, (Text.sortBy_perm _ _).length_eq, List.length_eq_zero_iff]

end Criteria.Schema
