import Criteria.Json.Text
import Criteria.Request.Basic
import Criteria.Text.Integer

/-!
Requests from JSON. Names are taken as they read in running text, so that a value of
any kind can stand for one; what is missing or counts as none given takes its default.
Conditions and groups have to be objects in something that can be gone through, and
page numbers have to be numbers; the first value that is not is the fault.
-/
namespace Criteria

/-- Why a value is no request, or no part of one. -/
inductive DecodeFault where
  | notObject (value : Json)
  /-- The value cannot be gone through. -/
  | notList (value : Json)
  /-- The value is neither a number nor a text. -/
  | notNumber (value : Json)
  | badInteger (fault : Text.IntegerFault)
  /-- A floating-point number that is not a number at all. -/
  | nan
  | infinite
deriving DecidableEq, Repr

/-- The words for a fault. Faults of kind have none of their own. -/
def DecodeFault.message? : DecodeFault → Option String
  | notObject _ | notList _ | notNumber _ => none
  | badInteger fault => some fault.message
  | nan => some "cannot convert float NaN to integer"
  | infinite => some "cannot convert float infinity to integer"

namespace Json

/-- The entries of an object. -/
def entries : Json → Except DecodeFault (List (String × Json))
  | obj entries => .ok entries
  | x => .error (.notObject x)

/-- An entry as it reads in running text, or a default if there is none. -/
def textOr (default name : String) (entries : List (String × Json)) : String :=
  ((entries.lookup name).map display).getD default

/-- The integer that a value stands for; a fraction is cut off. -/
def toInteger : Json → Except DecodeFault Int
  | int n => .ok n
  | bool b => .ok (if b then 1 else 0)
  | float x =>
    match x.truncate? with
    | some n => .ok n
    | none =>
      match x.view with
      | .nan => .error .nan
      | _ => .error .infinite
  | str s =>
    match Text.readInteger s with
    | .ok n => .ok n
    | .error fault => .error (.badInteger fault)
  | x => .error (.notNumber x)

/-- The integer of an entry, or a default if there is none or it counts as none given. -/
def integerOr (default : Int) (name : String) (entries : List (String × Json)) : Except DecodeFault Int :=
  let x := getOrNull name entries
  if x.isVacant then .ok default else x.toInteger

end Json

/-- The condition that a value describes. -/
def Condition.ofJson (x : Json) : Except DecodeFault Condition := do
  let entries ← x.entries
  return ⟨Json.textOr "" "field" entries, Json.textOr "" "operator" entries,
    Json.getOrNull "value" entries, Json.getOrNull "values" entries⟩

/-- The conditions that a value lists. -/
def Condition.listOfJson (x : Json) : Except DecodeFault (List Condition) :=
  if x.isVacant then .ok []
  else match x.members? with
    | some items => items.mapM Condition.ofJson
    | none => .error (.notList x)

namespace Group

mutual

/-- The tree that a value describes. -/
def ofJson : Json → Except DecodeFault Group
  | .obj entries => do
    let operator := Json.textOr Connective.all.name "operator" entries
    let conditions ← Condition.listOfJson (Json.getOrNull "conditions" entries)
    let groups ← ofEntries entries
    return .node operator (conditions.map .condition) groups
  | x => .error (.notObject x)

/-- The subgroups that the entries of a group list. -/
def ofEntries : List (String × Json) → Except DecodeFault (List Group)
  | [] => .ok []
  | (name, x) :: rest => if name == "groups" then listOfJson x else ofEntries rest

/-- The trees that a value lists. No character of a text and no name of an entry is a group. -/
def listOfJson : Json → Except DecodeFault (List Group)
  | .arr items => ofItems items
  | x =>
    if x.isVacant then .ok []
    else match x.members? with
      | some (first :: _) => .error (.notObject first)
      | some [] => .ok []
      | none => .error (.notList x)

/-- The trees that several values describe. -/
def ofItems : List Json → Except DecodeFault (List Group)
  | [] => .ok []
  | x :: rest => do
    let first ← ofJson x
    let others ← ofItems rest
    return first :: others

end

theorem ofEntries_eq (entries : List (String × Json)) :
    ofEntries entries = listOfJson (Json.getOrNull "groups" entries) := by
  induction entries with
  | nil => simp [ofEntries, Json.getOrNull, listOfJson, Json.isVacant]
  | cons e rest ih =>
    obtain ⟨name, x⟩ := e
    by_cases h : name = "groups"
    · simp [ofEntries, Json.getOrNull, h]
    · have different : ("groups" == name) = false := by simpa using Ne.symm h
      simp [ofEntries, Json.getOrNull, h, List.lookup_cons, different, ih]

end Group

/-- The sort key that a value describes. -/
def SortKey.ofJson (x : Json) : Except DecodeFault SortKey := do
  let entries ← x.entries
  return ⟨Json.textOr "" "field" entries, Json.textOr Direction.ascending.name "direction" entries⟩

/-- The page request that a value describes. -/
def PageRequest.ofJson (x : Json) : Except DecodeFault PageRequest := do
  let entries ← x.entries
  return ⟨← Json.integerOr 1 "page" entries, ← Json.integerOr 0 "limit" entries⟩

/-- What a value describes, unless it counts as none given. -/
def optional {α : Type} (read : Json → Except DecodeFault α) (x : Json) : Except DecodeFault (Option α) :=
  if x.isVacant then .ok none else do return some (← read x)

/-- The request that a value describes. -/
def Request.ofJson (x : Json) : Except DecodeFault Request := do
  let entries ← x.entries
  let filters := Json.getOrNull "filters" entries
  return {
    entity := Json.textOr "" "entity" entries
    filters := ← if filters.isVacant then .ok Group.empty else Group.ofJson filters
    search := Json.getOrNull "search" entries
    sort := ← optional SortKey.ofJson (Json.getOrNull "sort" entries)
    pagination := ← optional PageRequest.ofJson (Json.getOrNull "pagination" entries) }

end Criteria
