import Criteria.Decimal.Binary64

/-!
JSON values. An object keeps its entries in the order in which they were written,
and integers are kept apart from floating-point numbers. Of several entries with
one name the first is the one that counts; values that were read from a text have
no such entries.
-/
namespace Criteria

/-- A JSON value. -/
inductive Json where
  | null
  | bool (b : Bool)
  | int (n : Int)
  | float (x : Binary64)
  | str (s : String)
  | arr (items : List Json)
  | obj (entries : List (String × Json))
deriving Repr, Inhabited

namespace Json

mutual

/-- Equality of values: same kind, same content, entries in the same order. -/
def same : Json → Json → Bool
  | null, null => true
  | bool a, bool b => a == b
  | int m, int n => m == n
  | float x, float y => x == y
  | str s, str t => s == t
  | arr xs, arr ys => sameItems xs ys
  | obj xs, obj ys => sameEntries xs ys
  | _, _ => false

/-- Equality of lists of values. -/
def sameItems : List Json → List Json → Bool
  | [], [] => true
  | x :: xs, y :: ys => same x y && sameItems xs ys
  | _, _ => false

/-- Equality of lists of entries. -/
def sameEntries : List (String × Json) → List (String × Json) → Bool
  | [], [] => true
  | (k, x) :: xs, (l, y) :: ys => k == l && same x y && sameEntries xs ys
  | _, _ => false

end

mutual

theorem eq_of_same : ∀ {x y : Json}, same x y = true → x = y
  | null, y, h => by cases y <;> simp_all [same]
  | bool _, y, h => by cases y <;> simp_all [same]
  | int _, y, h => by cases y <;> simp_all [same]
  | float _, y, h => by cases y <;> simp_all [same]
  | str _, y, h => by cases y <;> simp_all [same]
  | arr xs, y, h => by
    cases y <;> simp only [same, Bool.false_eq_true] at h
    rw [eq_of_sameItems h]
  | obj xs, y, h => by
    cases y <;> simp only [same, Bool.false_eq_true] at h
    rw [eq_of_sameEntries h]

theorem eq_of_sameItems : ∀ {xs ys : List Json}, sameItems xs ys = true → xs = ys
  | [], [], _ => rfl
  | [], _ :: _, h => by simp [sameItems] at h
  | _ :: _, [], h => by simp [sameItems] at h
  | x :: xs, y :: ys, h => by
    simp only [sameItems, Bool.and_eq_true] at h
    rw [eq_of_same h.1, eq_of_sameItems h.2]

theorem eq_of_sameEntries : ∀ {xs ys : List (String × Json)}, sameEntries xs ys = true → xs = ys
  | [], [], _ => rfl
  | [], _ :: _, h => by simp [sameEntries] at h
  | _ :: _, [], h => by simp [sameEntries] at h
  | (k, x) :: xs, (l, y) :: ys, h => by
    simp only [sameEntries, Bool.and_eq_true, beq_iff_eq] at h
    rw [h.1.1, eq_of_same h.1.2, eq_of_sameEntries h.2]

end

mutual

theorem same_refl : ∀ x : Json, same x x = true
  | null => rfl
  | bool _ => by simp [same]
  | int _ => by simp [same]
  | float _ => by simp [same]
  | str _ => by simp [same]
  | arr xs => by simp [same, sameItems_refl xs]
  | obj xs => by simp [same, sameEntries_refl xs]

theorem sameItems_refl : ∀ xs : List Json, sameItems xs xs = true
  | [] => rfl
  | x :: xs => by simp [sameItems, same_refl x, sameItems_refl xs]

theorem sameEntries_refl : ∀ xs : List (String × Json), sameEntries xs xs = true
  | [] => rfl
  | (_, x) :: xs => by simp [sameEntries, same_refl x, sameEntries_refl xs]

end

theorem same_iff {x y : Json} : same x y = true ↔ x = y :=
  ⟨eq_of_same, fun h => h ▸ same_refl x⟩

instance : DecidableEq Json := fun _ _ => decidable_of_iff _ same_iff

/-- The value of the entry with the given name, if the value is an object that has one. -/
def get? (name : String) : Json → Option Json
  | obj entries => entries.lookup name
  | _ => none

/-- The value of the entry with the given name, or null. -/
def getOrNull (name : String) (entries : List (String × Json)) : Json :=
  (entries.lookup name).getD null

/-- Whether a value counts as none given: null, false, zero, or an empty text, array or object. -/
def isVacant : Json → Bool
  | null => true
  | bool b => !b
  | int n => n == 0
  | float x => x.isZero
  | str s => s == ""
  | arr items => items.isEmpty
  | obj entries => entries.isEmpty

/-- Whether a value is an array. -/
def isArray : Json → Bool
  | arr _ => true
  | _ => false

/-- Whether a value is null. -/
def isNull : Json → Bool
  | null => true
  | _ => false

/-- The members of a value that can be gone through: the items of an array, the characters of a text,
the names of an object. -/
def members? : Json → Option (List Json)
  | arr items => some items
  | str s => some (s.toList.map fun c => str (String.singleton c))
  | obj entries => some (entries.map fun e => str e.1)
  | _ => none

end Json

end Criteria
