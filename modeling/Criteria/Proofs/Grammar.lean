import Mathlib.Data.List.Forall2
import Criteria.Request.Basic

/-!
The grammar of requests: which values describe a condition, a group, a sort key, a page
or a request, and which one each of them describes (`Json.DescribesRequest`). An object
has only the entries that are named for it. What is optional may be absent, and null only
where that is said. Nothing is read into a value that it does not say: names are texts,
and an integer is written as one or as a number without a fraction.
-/
namespace Criteria

/-- A floating-point number is exactly an integer. -/
def Binary64.IsExactly (x : Binary64) (n : Int) : Prop :=
  ∃ negative m q k, x.view = .finite negative m q ∧
    -- the magnitude `m · 2 ^ q` is `k`
    k * twoPow (-q).toNat = m * twoPow q.toNat ∧ n = if negative then -(k : Int) else k

theorem twoPow_zero : twoPow 0 = 1 := rfl

theorem twoPow_pos (k : Nat) : 0 < twoPow k := Nat.two_pow_pos k

namespace Binary64

/-- A magnitude without a fraction: a multiple of a power of two, or one that is divided by one. -/
theorem magnitude_iff {k m : Nat} {q : Int} :
    k * twoPow (-q).toNat = m * twoPow q.toNat ↔
      if 0 ≤ q then k = m * twoPow q.toNat else m = k * twoPow (-q).toNat := by
  by_cases whole : 0 ≤ q
  · have undivided : (-q).toNat = 0 := by omega
    rw [if_pos whole, undivided, twoPow_zero, Nat.mul_one]
  · have unshifted : q.toNat = 0 := by omega
    rw [if_neg whole, unshifted, twoPow_zero, Nat.mul_one, eq_comm]

theorem isIntegral_iff {x : Binary64} : x.isIntegral = true ↔ ∃ n, x.IsExactly n := by
  unfold isIntegral IsExactly
  cases found : x.view with
  | nan | infinite => simp
  | finite negative m q =>
    have magnitude : (0 ≤ q || m % twoPow (-q).toNat == 0) = true ↔
        ∃ k, k * twoPow (-q).toNat = m * twoPow q.toNat := by
      simp only [magnitude_iff, Bool.or_eq_true, decide_eq_true_eq, beq_iff_eq]
      split
      · rename_i whole
        exact iff_of_true (.inl whole) ⟨_, rfl⟩
      · rename_i divided
        rw [or_iff_right divided, ← Nat.dvd_iff_mod_eq_zero]
        constructor
        · rintro ⟨k, rfl⟩
          exact ⟨k, Nat.mul_comm _ _⟩
        · rintro ⟨k, rfl⟩
          exact Nat.dvd_mul_left _ _
    rw [magnitude]
    constructor
    · rintro ⟨k, exact⟩
      exact ⟨_, negative, m, q, k, rfl, exact, rfl⟩
    · rintro ⟨n, _, _, _, k, ⟨⟩, exact, -⟩
      exact ⟨k, exact⟩

section

variable {x : Binary64} {n : Int} (exact : x.IsExactly n)
include exact

theorem truncate?_of_isExactly : x.truncate? = some n := by
  obtain ⟨negative, m, q, k, found, magnitude, rfl⟩ := exact
  have whole : (if 0 ≤ q then m * twoPow q.toNat else m / twoPow (-q).toNat) = k := by
    rw [magnitude_iff] at magnitude
    split at magnitude
    · rename_i shifted
      rw [if_pos shifted, magnitude]
    · rename_i divided
      rw [if_neg divided, magnitude, Nat.mul_div_cancel _ (twoPow_pos _)]
  rw [truncate?, found]
  simp only [whole]

theorem ltNat_one_iff : x.ltNat 1 = true ↔ n < 1 := by
  obtain ⟨negative, m, q, k, found, magnitude, rfl⟩ := exact
  rw [ltNat, found]
  cases negative with
  | true =>
    refine iff_of_true rfl ?_
    rw [if_pos rfl]
    omega
  | false =>
    rw [magnitude_iff] at magnitude
    simp only [Bool.false_eq_true, if_false]
    split at magnitude
    · rename_i shifted
      rw [if_pos shifted, ← magnitude, decide_eq_true_eq]
      omega
    · rename_i divided
      rw [if_neg divided, magnitude, decide_eq_true_eq, Nat.mul_lt_mul_right (twoPow_pos _)]
      omega

theorem isZero_eq_false_of_isExactly (positive : 1 ≤ n) : x.isZero = false := by
  obtain ⟨negative, m, q, k, found, magnitude, rfl⟩ := exact
  rw [isZero, found, beq_eq_false_iff_ne]
  rintro rfl
  have zero : k = 0 := by
    rw [Nat.zero_mul, Nat.mul_eq_zero] at magnitude
    exact magnitude.resolve_right (Nat.ne_of_gt (twoPow_pos _))
  rw [zero] at positive
  cases negative <;> contradiction

end

end Binary64

namespace Json

/-- A value is an integer; a truth value is none. -/
def IsInteger : Json → Int → Prop
  | int m, n => m = n
  | float x, n => x.IsExactly n
  | _, _ => False

theorem isVacant_eq_false_of_isInteger {x : Json} {n : Int} (integer : x.IsInteger n) (positive : 1 ≤ n) :
    x.isVacant = false := by
  cases x with
  | int m =>
    cases integer
    exact beq_eq_false_iff_ne.mpr (by omega)
  | float x => exact Binary64.isZero_eq_false_of_isExactly integer positive
  | _ => cases integer

/-- Every entry has one of the names. -/
def OnlyNamed (names : List String) (entries : List (String × Json)) : Prop := ∀ e ∈ entries, e.1 ∈ names

/-- A value is an object, and its entries describe something. -/
def AsObject {α : Type} (Describe : List (String × Json) → α → Prop) : Json → α → Prop
  | obj entries, a => Describe entries a
  | _, _ => False

/-- An optional array describes the list of what its items describe. -/
inductive Lists {α : Type} (Describes : Json → α → Prop) : Option Json → List α → Prop
  | absent : Lists Describes none []
  | present {items : List Json} {found : List α} (each : List.Forall₂ Describes items found) :
      Lists Describes (some (arr items)) found

/-- An optional value describes nothing if it is absent or null. -/
inductive Optionally {α : Type} (Describes : Json → α → Prop) : Option Json → Option α → Prop
  | absent : Optionally Describes none none
  | null : Optionally Describes (some null) none
  | present {x : Json} {a : α} (described : Describes x a) : Optionally Describes (some x) (some a)

/-- Operands are an optional array, and null if it is absent. -/
inductive Operands : Option Json → Json → Prop
  | absent : Operands none null
  | present (items : List Json) : Operands (some (arr items)) (arr items)

/-- A term is an optional text, and null if it is absent. -/
inductive Term : Option Json → Json → Prop
  | absent : Term none null
  | null : Term (some null) null
  | present (s : String) : Term (some (str s)) (str s)

/-- A count is an optional integer from 1 on, and the default if it is absent. -/
inductive Count (default : Int) : Option Json → Int → Prop
  | absent : Count default none default
  | present {x : Json} {n : Int} (integer : x.IsInteger n) (positive : 1 ≤ n) : Count default (some x) n

/-- A direction is an optional name, and ascending if it is absent. -/
inductive Ordered : Option Json → String → Prop
  | absent : Ordered none Direction.ascending.name
  | present (d : Direction) : Ordered (some (str d.name)) d.name

/-- Entries that describe a condition. -/
structure ConditionEntries (entries : List (String × Json)) (c : Condition) : Prop where
  named : OnlyNamed ["field", "operator", "value", "values"] entries
  field : entries.lookup "field" = some (str c.field)
  notEmpty : c.field ≠ ""
  operator : ∃ op : Operator, c.operator = op.name ∧ entries.lookup "operator" = some (str op.name)
  value : c.value = getOrNull "value" entries
  values : Operands (entries.lookup "values") c.values

/-- A value describes a condition. -/
def DescribesCondition : Json → Condition → Prop := AsObject ConditionEntries

/-- Entries that describe a group, if it is known which values describe a subgroup. -/
inductive GroupEntries (Describes : Json → Group → Prop) (entries : List (String × Json)) : Group → Prop
  | node {connective : Connective} {conditions : List Condition} {groups : List Group}
      (named : OnlyNamed ["operator", "conditions", "groups"] entries)
      (operator : entries.lookup "operator" = some (str connective.name))
      (tests : Lists DescribesCondition (entries.lookup "conditions") conditions)
      (inner : Lists Describes (entries.lookup "groups") groups) :
      GroupEntries Describes entries (.node connective.name (conditions.map .condition) groups)

/-- A value describes a group of at most so many levels. -/
def DescribesGroup : Nat → Json → Group → Prop
  | 0 => fun _ _ => False
  | n + 1 => AsObject (GroupEntries (DescribesGroup n))

/-- Entries that describe a sort key. -/
structure SortEntries (entries : List (String × Json)) (s : SortKey) : Prop where
  named : OnlyNamed ["field", "direction"] entries
  field : entries.lookup "field" = some (str s.field)
  notEmpty : s.field ≠ ""
  direction : Ordered (entries.lookup "direction") s.direction

/-- Entries that describe a page. An absent limit is none at all. -/
structure PageEntries (entries : List (String × Json)) (p : PageRequest) : Prop where
  named : OnlyNamed ["page", "limit"] entries
  notEmpty : entries ≠ []
  number : Count 1 (entries.lookup "page") p.number
  limit : Count 0 (entries.lookup "limit") p.limit

/-- An optional value describes no page if it is absent or null, or has no entries. -/
inductive Paging : Option Json → Option PageRequest → Prop
  | optional {x : Option Json} {p : Option PageRequest} (described : Optionally (AsObject PageEntries) x p) :
      Paging x p
  | noEntries : Paging (some (obj [])) none

/-- Entries that describe a request. -/
structure RequestEntries (entries : List (String × Json)) (r : Request) : Prop where
  named : OnlyNamed ["entity", "filters", "search", "sort", "pagination"] entries
  entity : entries.lookup "entity" = some (str r.entity)
  notEmpty : r.entity ≠ ""
  filters : ∃ filters, entries.lookup "filters" = some filters ∧ DescribesGroup 10 filters r.filters
  search : Term (entries.lookup "search") r.search
  sort : Optionally (AsObject SortEntries) (entries.lookup "sort") r.sort
  pagination : Paging (entries.lookup "pagination") r.pagination

/-- A value describes a request. -/
def DescribesRequest : Json → Request → Prop := AsObject RequestEntries

end Json

end Criteria
