import Mathlib.Data.List.Permutation
import Criteria.Document.Scalar
import Criteria.Predicate.Basic

/-!
Predicates that say the same. A store does not look at the order of entries, nor at how
a number or a moment is written; `agrees` compares two predicates as it does. It is
reflexive and symmetric (`agrees_refl`, `agrees_comm`), predicates that agree have the
same names in their entries (`perm_of_agreeEntries`), and predicates under one path agree
as their leaves do (`agrees_nest`). What agrees with a pair of entries is such a pair, in
either order (`agreeEntries_pair_iff`).
-/
namespace Criteria

namespace Scalar

theorem isSameName_symm {x y : Scalar} (same : x.isSameName y = true) : y.isSameName x = true := by
  rw [isSameName_iff] at same ⊢
  exact same.symm

/-- A floating-point number counts as itself or as an integer. -/
theorem asName_float (x : Binary64) :
    (float x).asName = .float x ∨ ∃ n, (float x).asName = .int n := by
  rw [asName]
  split
  · cases x.truncate? with
    | none => exact .inl rfl
    | some n => exact .inr ⟨n, rfl⟩
  · exact .inl rfl

theorem asName_null : null.asName = .null := rfl

theorem asName_text (s : String) : (text s).asName = .text s := rfl

end Scalar

namespace Predicate

/-- The scalar that a predicate is, if it is one. -/
def scalar? : Predicate → Option Scalar
  | null => some .null
  | bool b => some (.bool b)
  | int n => some (.int n)
  | float x => some (.float x)
  | text s => some (.text s)
  | _ => none

mutual

/-- Whether two predicates say the same: lists item by item, objects entry by entry in any
    order, moments by the instant and by whether an offset is known, and scalars by what
    they count as. -/
def agrees : Predicate → Predicate → Bool
  | list xs, list ys => agreeItems xs ys
  | object xs, object ys => agreeEntries xs ys
  | moment m, moment n => m.offset.isSome == n.offset.isSome && m.instant == n.instant
  | p, q =>
    match p.scalar?, q.scalar? with
    | some x, some y => x.isSameName y
    | _, _ => false

/-- Whether the items of two lists say the same, one by one. -/
def agreeItems : List Predicate → List Predicate → Bool
  | [], [] => true
  | p :: ps, q :: qs => agrees p q && agreeItems ps qs
  | _, _ => false

/-- Whether the entries of two objects say the same, each with the first one of its name. -/
def agreeEntries : List (String × Predicate) → List (String × Predicate) → Bool
  | [], others => others.isEmpty
  | (k, p) :: rest, others =>
    match others.lookup k with
    | some q => agrees p q && agreeEntries rest (others.eraseP (·.1 == k))
    | none => false

end

mutual

theorem agrees_refl : ∀ p : Predicate, p.agrees p = true
  | null => by simp [agrees, scalar?, Scalar.isSameName]
  | bool _ => by simp [agrees, scalar?, Scalar.isSameName]
  | int _ => by simp [agrees, scalar?, Scalar.isSameName]
  | float _ => by simp [agrees, scalar?, Scalar.isSameName]
  | text _ => by simp [agrees, scalar?, Scalar.isSameName]
  | moment _ => by simp [agrees]
  | list ps => by simp [agrees, agreeItems_refl ps]
  | object entries => by simp [agrees, agreeEntries_refl entries]

theorem agreeItems_refl : ∀ ps : List Predicate, agreeItems ps ps = true
  | [] => rfl
  | p :: ps => by simp [agreeItems, agrees_refl p, agreeItems_refl ps]

theorem agreeEntries_refl : ∀ entries : List (String × Predicate), agreeEntries entries entries = true
  | [] => rfl
  | (k, p) :: rest => by simp [agreeEntries, agrees_refl p, agreeEntries_refl rest]

end

/-! ### Entries -/

/-- The first entry agrees with the first of its name, and the others with the others. -/
theorem cons_agreeEntries_iff {k : String} {p : Predicate} {rest others : List (String × Predicate)} :
    agreeEntries ((k, p) :: rest) others = true ↔ ∃ q, others.lookup k = some q ∧ p.agrees q = true ∧
      agreeEntries rest (others.eraseP (·.1 == k)) = true := by
  rw [agreeEntries]
  cases others.lookup k with
  | none => simp
  | some q => simp

theorem exists_split_of_lookup {k : String} {q : Predicate} {others : List (String × Predicate)}
    (found : others.lookup k = some q) : ∃ before after, others = before ++ (k, q) :: after ∧
      (∀ e ∈ before, e.1 ≠ k) ∧ others.eraseP (·.1 == k) = before ++ after := by
  obtain ⟨before, after, rfl, unnamed⟩ := List.lookup_eq_some_iff.mp found
  have apart : ∀ e ∈ before, e.1 ≠ k := by
    intro e inside same
    exact absurd same.symm (bne_iff_ne.mp (unnamed e inside))
  refine ⟨before, after, rfl, apart, ?_⟩
  rw [List.eraseP_append_right _ (by simpa using apart), List.eraseP_cons_of_pos (by simp)]

/-- Objects that agree have the same names. -/
theorem perm_of_agreeEntries {entries others : List (String × Predicate)}
    (same : agreeEntries entries others = true) : (entries.map (·.1)).Perm (others.map (·.1)) := by
  induction entries generalizing others with
  | nil =>
    rw [agreeEntries, List.isEmpty_iff] at same
    rw [same]
  | cons e rest ih =>
    obtain ⟨k, p⟩ := e
    obtain ⟨q, found, -, later⟩ := cons_agreeEntries_iff.mp same
    obtain ⟨before, after, rfl, -, others⟩ := exists_split_of_lookup found
    rw [others] at later
    have middle : (before ++ (k, q) :: after).Perm ((k, q) :: (before ++ after)) := List.perm_middle
    exact ((ih later).cons k).trans (middle.map Prod.fst).symm

/-- Entries agree with a first entry where one of its name agrees with it and the others
    with the others. -/
theorem agreeEntries_cons_iff {k : String} {p q : Predicate} {before after rest : List (String × Predicate)}
    (apart : ∀ e ∈ before, e.1 ≠ k) :
    agreeEntries (before ++ (k, q) :: after) ((k, p) :: rest) = true ↔
      q.agrees p = true ∧ agreeEntries (before ++ after) rest = true := by
  -- Each entry of `before` takes its partner out of `rest`, and the first one stays in front.
  induction before generalizing rest with
  | nil => simp [agreeEntries]
  | cons e others ih =>
    obtain ⟨name, x⟩ := e
    obtain ⟨differs, later⟩ := List.forall_mem_cons.mp apart
    have differs' : (name == k) = false := beq_eq_false_iff_ne.mpr differs
    have differs'' : (k == name) = false := beq_eq_false_iff_ne.mpr (Ne.symm differs)
    rw [List.cons_append, List.cons_append, cons_agreeEntries_iff, cons_agreeEntries_iff,
      List.lookup_cons, differs', List.eraseP_cons_of_neg (by simp [differs''])]
    simp only [ih later]
    constructor
    · rintro ⟨y, found, first, own, remaining⟩
      exact ⟨own, y, found, first, remaining⟩
    · rintro ⟨own, y, found, first, remaining⟩
      exact ⟨y, found, first, own, remaining⟩

mutual

theorem agrees_symm : ∀ {p q : Predicate}, p.agrees q = true → q.agrees p = true
  | list ps, q, same => by
    cases q with
    | list qs => exact agreeItems_symm same
    | _ => cases same
  | object entries, q, same => by
    cases q with
    | object others => exact agreeEntries_symm same
    | _ => cases same
  | moment m, q, same => by
    cases q with
    | moment n =>
      rw [agrees, Bool.and_eq_true, beq_iff_eq, beq_iff_eq] at same ⊢
      exact ⟨same.1.symm, same.2.symm⟩
    | _ => cases same
  | null, q, same => by cases q <;> first | exact Scalar.isSameName_symm same | cases same
  | bool b, q, same => by cases q <;> first | exact Scalar.isSameName_symm same | cases same
  | int n, q, same => by cases q <;> first | exact Scalar.isSameName_symm same | cases same
  | float x, q, same => by cases q <;> first | exact Scalar.isSameName_symm same | cases same
  | text s, q, same => by cases q <;> first | exact Scalar.isSameName_symm same | cases same

theorem agreeItems_symm : ∀ {ps qs : List Predicate}, agreeItems ps qs = true → agreeItems qs ps = true
  | [], [], _ => rfl
  | [], _ :: _, same => by cases same
  | _ :: _, [], same => by cases same
  | p :: ps, q :: qs, same => by
    rw [agreeItems, Bool.and_eq_true] at same ⊢
    exact ⟨agrees_symm same.1, agreeItems_symm same.2⟩

theorem agreeEntries_symm : ∀ {entries others : List (String × Predicate)},
    agreeEntries entries others = true → agreeEntries others entries = true
  | [], others, same => by
    rw [agreeEntries, List.isEmpty_iff] at same
    rw [same, agreeEntries, List.isEmpty_nil]
  | (k, p) :: rest, others, same => by
    obtain ⟨q, found, agreed, later⟩ := cons_agreeEntries_iff.mp same
    obtain ⟨before, after, rfl, apart, remaining⟩ := exists_split_of_lookup found
    rw [remaining] at later
    exact (agreeEntries_cons_iff apart).mpr ⟨agrees_symm agreed, agreeEntries_symm later⟩

end

theorem agrees_comm (p q : Predicate) : p.agrees q = q.agrees p :=
  Bool.eq_iff_iff.mpr ⟨agrees_symm, agrees_symm⟩

/-! ### Single entries and pairs -/

variable {k l : String} {p q : Predicate}

@[simp]
theorem agrees_single (k : String) (p q : Predicate) : agrees (object [(k, p)]) (object [(k, q)]) = p.agrees q := by
  simp [agrees, agreeEntries]

theorem agrees_nest (path : List String) (p q : Predicate) : (nest path p).agrees (nest path q) = p.agrees q := by
  induction path with
  | nil => rfl
  | cons segment rest ih => exact (agrees_single segment (nest rest p) (nest rest q)).trans ih

theorem exists_pair_of_perm {entries : List (String × Predicate)}
    (names : (entries.map (·.1)).Perm [k, l]) : ∃ x y, entries = [(k, x), (l, y)] ∨ entries = [(l, y), (k, x)] := by
  match entries, names.length_eq with
  | [(first, x), (second, y)], _ =>
    rcases List.perm_pair.mp names with inOrder | swapped
    · cases inOrder
      exact ⟨x, y, .inl rfl⟩
    · cases swapped
      exact ⟨y, x, .inr rfl⟩

theorem agreeEntries_pair_iff (apart : k ≠ l) {entries : List (String × Predicate)} :
    agreeEntries entries [(k, p), (l, q)] = true ↔
      ∃ x y, (entries = [(k, x), (l, y)] ∨ entries = [(l, y), (k, x)]) ∧ x.agrees p = true ∧ y.agrees q = true := by
  have inOrder (x y : Predicate) : agreeEntries [(k, x), (l, y)] [(k, p), (l, q)] = true ↔
      x.agrees p = true ∧ y.agrees q = true := by
    simp [agreeEntries]
  have swapped (x y : Predicate) : agreeEntries [(l, y), (k, x)] [(k, p), (l, q)] = true ↔
      y.agrees q = true ∧ x.agrees p = true := by
    simp [agreeEntries, List.lookup_cons, apart, beq_eq_false_iff_ne.mpr (Ne.symm apart)]
  constructor
  · intro same
    obtain ⟨x, y, rfl | rfl⟩ := exists_pair_of_perm (perm_of_agreeEntries same)
    · exact ⟨x, y, .inl rfl, (inOrder x y).mp same⟩
    · exact ⟨x, y, .inr rfl, ((swapped x y).mp same).symm⟩
  · rintro ⟨x, y, rfl | rfl, first, second⟩
    · exact (inOrder x y).mpr ⟨first, second⟩
    · exact (swapped x y).mpr ⟨second, first⟩

example : agreeEntries [("b", null), ("a", bool true)] [("a", int 1), ("b", null)] = true := by decide

/-! ### Operands -/

/-- Whether a predicate is a null or a text, which counts as nothing but itself. -/
def isPlain : Predicate → Bool
  | null | text _ => true
  | _ => false

theorem agrees_iff_eq (plain : q.isPlain = true) : p.agrees q = true ↔ p = q := by
  cases p with
  | float x =>
    rcases Scalar.asName_float x with same | ⟨n, same⟩
    · cases q <;> cases plain <;>
        simp [agrees, scalar?, Scalar.isSameName, same, Scalar.asName_null, Scalar.asName_text]
    · cases q <;> cases plain <;>
        simp [agrees, scalar?, Scalar.isSameName, same, Scalar.asName_null, Scalar.asName_text]
  | _ => cases q <;> cases plain <;> simp [agrees, scalar?, Scalar.isSameName, Scalar.asName]

theorem agrees_null_eq_false (given : p ≠ null) : p.agrees null = false := by
  rw [← Bool.not_eq_true, agrees_iff_eq rfl]
  exact given

theorem ofJson_eq_null_iff {v : Json} : ofJson v = null ↔ v = .null := by
  cases v <;> simp [ofJson]

theorem ofJson_eq_text_iff {v : Json} {s : String} : ofJson v = text s ↔ v = .str s := by
  cases v <;> simp [ofJson]

/-- No operand is a moment. -/
theorem ofJson_agrees_moment (v : Json) (m : Calendar.Moment) : (ofJson v).agrees (moment m) = false := by
  cases v <;> rfl

theorem ofEntries_eq_pair_iff {k l : String} {p q : Predicate} {entries : List (String × Json)} :
    ofEntries entries = [(k, p), (l, q)] ↔
      ∃ x y, entries = [(k, x), (l, y)] ∧ ofJson x = p ∧ ofJson y = q := by
  constructor
  · intro same
    match entries, same with
    | [(first, x), (second, y)], same =>
      cases same
      exact ⟨x, y, rfl, rfl, rfl⟩
  · rintro ⟨x, y, rfl, rfl, rfl⟩
    rfl

end Predicate

end Criteria
