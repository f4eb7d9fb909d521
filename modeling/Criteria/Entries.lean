/-!
Entries that are collected one by one, each a name and a value. A name that comes again
takes the new value at its first place; `lookup_put_self` says that the new value is the
one found, and `lookup_put_of_ne` that all other names keep theirs.
-/
namespace Criteria.Entries

variable {ν α : Type}

/-- The entries with one more: at the place of an entry of the same name, which keeps its name, or at
the end. -/
def put (same : ν → ν → Bool) (name : ν) (x : α) : List (ν × α) → List (ν × α)
  | [] => [(name, x)]
  | (k, y) :: rest => if same k name then (k, x) :: rest else (k, y) :: put same name x rest

/-- The entries of a list, put one after the other. -/
def ofList (same : ν → ν → Bool) (entries : List (ν × α)) : List (ν × α) :=
  entries.foldl (fun read e => put same e.1 e.2 read) []

theorem lookup_put_self [BEq ν] [LawfulBEq ν] (name : ν) (x : α) (entries : List (ν × α)) :
    (put (· == ·) name x entries).lookup name = some x := by
  induction entries with
  | nil => simp [put]
  | cons e rest ih =>
    obtain ⟨k, y⟩ := e
    by_cases h : k = name
    · simp [put, h]
    · have other : (name == k) = false := beq_eq_false_iff_ne.2 (Ne.symm h)
      simp [put, h, List.lookup_cons, other, ih]

theorem lookup_put_of_ne [BEq ν] [LawfulBEq ν] {name key : ν} (other : key ≠ name) (x : α) (entries : List (ν × α)) :
    (put (· == ·) key x entries).lookup name = entries.lookup name := by
  induction entries with
  | nil => simp [put, List.lookup_cons, beq_eq_false_iff_ne.mpr other.symm]
  | cons e rest ih =>
    obtain ⟨k, y⟩ := e
    by_cases same : k = key
    · subst same
      simp [put, List.lookup_cons, beq_eq_false_iff_ne.mpr other.symm]
    · simp [put, same, List.lookup_cons, ih]

end Criteria.Entries
