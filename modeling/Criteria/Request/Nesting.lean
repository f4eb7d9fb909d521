import Criteria.Json.Basic

/-!
How deep the groups of a value are nested, told from the value alone. What stands in
the `groups` of an object lies one level below it, whatever it is.
-/
namespace Criteria.Json

mutual

/-- The number of levels of a value. -/
def levels : Json → Nat
  | obj entries => levelsInEntries entries + 1
  | _ => 1

/-- The number of levels below an object with the given entries. -/
def levelsInEntries : List (String × Json) → Nat
  | [] => 0
  | (name, x) :: rest => if name == "groups" then levelsInList x else levelsInEntries rest

/-- The number of levels of the deepest item of an array; nothing else has any. -/
def levelsInList : Json → Nat
  | arr items => levelsInItems items
  | _ => 0

/-- The number of levels of the deepest of several values. -/
def levelsInItems : List Json → Nat
  | [] => 0
  | x :: rest => max (levels x) (levelsInItems rest)

end

theorem levelsInEntries_eq (entries : List (String × Json)) :
    levelsInEntries entries = levelsInList (getOrNull "groups" entries) := by
  induction entries with
  | nil => simp [levelsInEntries, getOrNull, levelsInList]
  | cons e rest ih =>
    obtain ⟨name, x⟩ := e
    by_cases h : name = "groups"
    · simp [levelsInEntries, getOrNull, h]
    · have different : ("groups" == name) = false := by simpa using Ne.symm h
      simp [levelsInEntries, getOrNull, h, List.lookup_cons, different, ih]

end Criteria.Json
