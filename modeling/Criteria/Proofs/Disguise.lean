import Criteria.Matrix.Packaged
import Criteria.Proofs.Agreement
import Criteria.Proofs.Leaf

/-!
Operators in disguise. A field that does not allow an operator should not be asked for
the predicate of that operator under another one. Few operators have leaves that look
alike (`mem_lookalikes`), and operands that fit keep all of them apart but one pair:
`not_equals` takes an object, and an object that writes out the test of `not_contains`
makes its predicate (`sameOutcome_iff_disguised`).
-/
namespace Criteria

open Calendar (Now)

/-! ### Whitelisting one operator more -/

/-- The rows of a table, those of one name with a changed value. -/
def changeAt {ν α : Type} [BEq ν] (name : ν) (f : α → α) (rows : List (ν × α)) : List (ν × α) :=
  rows.map fun row => if row.1 == name then (row.1, f row.2) else row

theorem lookup_changeAt {ν α : Type} [BEq ν] [LawfulBEq ν] (name : ν) (f : α → α) (rows : List (ν × α)) :
    (changeAt name f rows).lookup name = (rows.lookup name).map f := by
  induction rows with
  | nil => rfl
  | cons row rest ih =>
    obtain ⟨k, x⟩ := row
    rw [changeAt, List.map_cons]
    by_cases same : k = name
    · subst same
      simp
    · have different : (k == name) = false := beq_eq_false_iff_ne.mpr same
      have different' : (name == k) = false := beq_eq_false_iff_ne.mpr (Ne.symm same)
      rw [different, if_neg Bool.false_ne_true, List.lookup_cons, List.lookup_cons, different']
      exact ih

namespace Matrix

/-- A matrix that allows one operator more for a field that it lists. -/
def allow (m : Matrix) (entity : Scalar) (field : String) (op : Operator) : Matrix :=
  { m with fields := changeAt entity (changeAt field (op :: ·)) m.fields }

theorem operators?_allow (m : Matrix) (entity : Scalar) (field : String) (op : Operator) :
    (m.allow entity field op).operators? entity field = (m.operators? entity field).map (op :: ·) := by
  unfold operators? fieldsOf allow
  rw [lookup_changeAt]
  cases m.fields.lookup entity with
  | none => rfl
  | some rows => exact lookup_changeAt field (op :: ·) rows

end Matrix

theorem Condition.violations_allow_eq_nil_iff {m : Matrix} {entity : String} {c : Condition} {op : Operator}
    (named : c.operator = op.name) :
    c.violations (m.allow entity c.field op) entity = [] ↔ (m.operators? entity c.field).isSome ∧ c.Fits op := by
  rw [violations_eq_nil_iff, Matrix.operators?_allow]
  constructor
  · rintro ⟨allowed, other, listed, named', -, fits⟩
    obtain rfl := Operator.name_inj (named.symm.trans named')
    obtain ⟨known, isKnown, -⟩ := Option.map_eq_some_iff.mp listed
    exact ⟨Option.isSome_of_eq_some isKnown, fits⟩
  · rintro ⟨isListed, fits⟩
    obtain ⟨known, isKnown⟩ := Option.isSome_iff_exists.mp isListed
    exact ⟨op :: known, op, by rw [isKnown, Option.map_some], named, List.mem_cons_self, fits⟩

/-! ### Leaves that look alike -/

/-- The operators whose leaves can have the same entries, windows of dates aside. -/
def lookalikes : List (Operator × Operator) :=
  [(.equals, .isEmpty), (.notEquals, .isNotEmpty), (.notContains, .isNotEmpty), (.notEquals, .notContains),
    (.greaterThan, .dateAfter), (.lessThan, .dateBefore), (.between, .dateBetween)]

/-- Whether two operators are the two that ask for a window of dates. -/
def areWindows (a b : Operator) : Bool :=
  (a, b) == (.dateEquals, .dateRelative) || (a, b) == (.dateRelative, .dateEquals)

theorem mem_lookalikes {a b : Operator} (different : a ≠ b) (apart : areWindows a b = false)
    (same : a.keys.Perm b.keys) : (a, b) ∈ lookalikes ∨ (b, a) ∈ lookalikes := by
  have checked : ∀ a ∈ Operator.all, ∀ b ∈ Operator.all, a ≠ b → areWindows a b = false → a.keys.Perm b.keys →
      (a, b) ∈ lookalikes ∨ (b, a) ∈ lookalikes := by decide
  exact checked a a.mem_all b b.mem_all different apart same

/-- A value writes out the test that a text is contained, case aside: an object with the
    entries of that test, in either order. -/
def Json.WritesTest (v contained : Json) : Prop :=
  v = .obj [("contains", contained), ("mode", .str "insensitive")] ∨
    v = .obj [("mode", .str "insensitive"), ("contains", contained)]

/-- The operands that say what the test of a text says are those that write it out. -/
theorem Predicate.ofJson_agrees_test_iff {v : Json} {p : Predicate} :
    (ofJson v).agrees (object [("contains", p), insensitive]) = true ↔
      ∃ x, v.WritesTest x ∧ (ofJson x).agrees p = true := by
  have apart : "contains" ≠ "mode" := by decide
  constructor
  · intro same
    cases v with
    | obj entries =>
      rw [ofJson, agrees, insensitive, agreeEntries_pair_iff apart] at same
      obtain ⟨x', mode', written, agreed, isMode⟩ := same
      rw [agrees_iff_eq rfl] at isMode
      rw [ofEntries_eq_pair_iff, ofEntries_eq_pair_iff] at written
      rcases written with ⟨x, mode, rfl, rfl, rfl⟩ | ⟨mode, x, rfl, rfl, rfl⟩
      · obtain rfl := ofJson_eq_text_iff.mp isMode
        exact ⟨x, .inl rfl, agreed⟩
      · obtain rfl := ofJson_eq_text_iff.mp isMode
        exact ⟨x, .inr rfl, agreed⟩
    | _ => cases same
  · rintro ⟨x, rfl | rfl, agreed⟩
    · exact (agreeEntries_pair_iff apart).mpr ⟨_, _, .inl rfl, agreed, agrees_refl _⟩
    · exact (agreeEntries_pair_iff apart).mpr ⟨_, _, .inr rfl, agreed, agrees_refl _⟩

namespace Condition

/-- A condition asks under `not_equals` for what another one asks under `not_contains`:
    its operand writes out the test that the operand of the other is contained. -/
def Disguises (c d : Condition) : Prop :=
  c.operator = Operator.notEquals.name ∧ d.operator = Operator.notContains.name ∧
    ∃ x, c.value.WritesTest x ∧ (Predicate.ofJson x).agrees (Predicate.ofJson d.value) = true

variable {now : Now} {c d : Condition} {a b : Operator} {p q : Predicate}

theorem disguises_iff (named : c.operator = a.name) (named' : d.operator = b.name) :
    c.Disguises d ↔ a = .notEquals ∧ b = .notContains ∧
      ∃ x, c.value.WritesTest x ∧ (Predicate.ofJson x).agrees (Predicate.ofJson d.value) = true := by
  have operator {op op' : Operator} : op.name = op'.name ↔ op = op' := ⟨Operator.name_inj, congrArg _⟩
  rw [Disguises, named, named', operator, operator]

/-- Of the leaves that look alike, those of operands that fit agree only in disguise. -/
theorem agrees_iff_of_lookalike (pair : (a, b) ∈ lookalikes) (fits : c.Fits a) (made : c.leafOf now a = .ok p)
    (made' : d.leafOf now b = .ok q) :
    p.agrees q = true ↔ a = .notEquals ∧ b = .notContains ∧
      ∃ x, c.value.WritesTest x ∧ (Predicate.ofJson x).agrees (Predicate.ofJson d.value) = true := by
  -- An operand that fits is not null, a test is no null either, and no operand is a moment.
  simp only [lookalikes, List.mem_cons, List.not_mem_nil, or_false, Prod.mk.injEq] at pair
  rcases pair with ⟨rfl, rfl⟩ | ⟨rfl, rfl⟩ | ⟨rfl, rfl⟩ | ⟨rfl, rfl⟩ | ⟨rfl, rfl⟩ | ⟨rfl, rfl⟩ | ⟨rfl, rfl⟩
  · obtain rfl := pure_eq_ok_iff.mp made
    obtain rfl := pure_eq_ok_iff.mp made'
    have given : Predicate.ofJson c.value ≠ .null := mt Predicate.ofJson_eq_null_iff.mp fits
    simp [Predicate.agrees_null_eq_false given]
  · obtain rfl := pure_eq_ok_iff.mp made
    obtain rfl := pure_eq_ok_iff.mp made'
    have given : Predicate.ofJson c.value ≠ .null := mt Predicate.ofJson_eq_null_iff.mp fits
    simp [Predicate.agrees_null_eq_false given]
  · obtain rfl := pure_eq_ok_iff.mp made
    obtain rfl := pure_eq_ok_iff.mp made'
    simp [Predicate.agrees_null_eq_false]
  · obtain rfl := pure_eq_ok_iff.mp made
    obtain rfl := pure_eq_ok_iff.mp made'
    simp [Predicate.ofJson_agrees_test_iff]
  · obtain rfl := pure_eq_ok_iff.mp made
    obtain ⟨moment, -, made'⟩ := bind_eq_ok_iff.mp made'
    obtain rfl := pure_eq_ok_iff.mp made'
    simp [Predicate.ofJson_agrees_moment]
  · obtain rfl := pure_eq_ok_iff.mp made
    obtain ⟨moment, -, made'⟩ := bind_eq_ok_iff.mp made'
    obtain rfl := pure_eq_ok_iff.mp made'
    simp [Predicate.ofJson_agrees_moment]
  · obtain ⟨⟨low, high⟩, -, made⟩ := bind_eq_ok_iff.mp made
    obtain rfl := pure_eq_ok_iff.mp made
    simp only [leafOf, bind_eq_ok_iff, pure_eq_ok_iff] at made'
    obtain ⟨_, -, first, -, last, -, rfl⟩ := made'
    simp [Predicate.agrees, Predicate.agreeEntries, Predicate.ofJson_agrees_moment]

/-- Leaves of different operators agree only in disguise, windows of dates aside. -/
theorem agrees_iff_disguised (named : c.operator = a.name) (named' : d.operator = b.name) (different : a ≠ b)
    (apart : areWindows a b = false) (fits : c.Fits a) (fits' : d.Fits b) (made : c.leafOf now a = .ok p)
    (made' : d.leafOf now b = .ok q) : p.agrees q = true ↔ c.Disguises d ∨ d.Disguises c := by
  rw [disguises_iff named named', disguises_iff named' named]
  by_cases same : a.keys.Perm b.keys
  · rcases mem_lookalikes different apart same with pair | pair
    · rw [agrees_iff_of_lookalike pair fits made made']
      refine (or_iff_left ?_).symm
      rintro ⟨rfl, rfl, -⟩
      exact absurd pair (by decide)
    · rw [Predicate.agrees_comm, agrees_iff_of_lookalike pair fits' made' made]
      refine (or_iff_right ?_).symm
      rintro ⟨rfl, rfl, -⟩
      exact absurd pair (by decide)
  · obtain ⟨entries, rfl, keys⟩ := leafOf_keys made
    obtain ⟨entries', rfl, keys'⟩ := leafOf_keys made'
    constructor
    · intro agreed
      have names := Predicate.perm_of_agreeEntries agreed
      rw [keys, keys'] at names
      exact absurd names same
    · rintro (⟨rfl, rfl, -⟩ | ⟨rfl, rfl, -⟩)
      · exact absurd (.refl _) same
      · exact absurd (.refl _) same

/-- Only windows of dates leave the calendar. -/
theorem operator_of_leafOf_error {e : CompileFault} (named : c.operator = a.name) (fits : c.Fits a)
    (failed : c.leafOf now a = .error e) : a = .dateEquals ∨ a = .dateRelative := by
  obtain ⟨fault, -, ⟨isWindow, -⟩ | ⟨isWindow, -⟩⟩ := leafOf_error named fits failed
  · exact .inl (Operator.name_inj (named.symm.trans isWindow))
  · exact .inr (Operator.name_inj (named.symm.trans isWindow))

theorem not_disguised_of_leafOf_error {e : CompileFault} (named : c.operator = a.name) (fits : c.Fits a)
    (failed : c.leafOf now a = .error e) (d : Condition) : ¬ c.Disguises d ∧ ¬ d.Disguises c := by
  have window := operator_of_leafOf_error named fits failed
  constructor
  · rintro ⟨named', -⟩
    obtain rfl := Operator.name_inj (named.symm.trans named')
    rcases window with same | same
    · cases same
    · cases same
  · rintro ⟨-, named', -⟩
    obtain rfl := Operator.name_inj (named.symm.trans named')
    rcases window with same | same
    · cases same
    · cases same

end Condition

/-! ### Outcomes -/

/-- Whether two filters come out the same: with predicates that agree, or both with none. -/
def sameOutcome : Except CompileFault Predicate → Except CompileFault Predicate → Bool
  | .ok p, .ok q => p.agrees q
  | .error _, .error _ => true
  | _, _ => false

namespace Condition

variable {now : Now} {c d : Condition} {a b : Operator}

theorem sameOutcome_compile_iff (named : c.operator = a.name) (named' : d.operator = b.name) (different : a ≠ b)
    (apart : areWindows a b = false) (sameField : d.field = c.field) (fits : c.Fits a) (fits' : d.Fits b) :
    sameOutcome (c.compile .nest now) (d.compile .nest now) = true ↔ c.Disguises d ∨ d.Disguises c := by
  have outcome {c : Condition} {a : Operator} (named : c.operator = a.name) :
      c.compile .nest now = (c.leafOf now a).map (Predicate.nest c.path) := by
    rw [compile, leaf_eq_leafOf named]
    rfl
  rw [outcome named, outcome named']
  cases made : c.leafOf now a with
  | ok p =>
    cases made' : d.leafOf now b with
    | ok q =>
      rw [← agrees_iff_disguised named named' different apart fits fits' made made', path, path, sameField,
        ← Predicate.agrees_nest (fieldPath c.field)]
      rfl
    | error e' =>
      obtain ⟨notBy, notOf⟩ := not_disguised_of_leafOf_error named' fits' made' c
      simp [sameOutcome, Except.map, notBy, notOf]
  | error e =>
    obtain ⟨notOf, notBy⟩ := not_disguised_of_leafOf_error named fits made d
    cases made' : d.leafOf now b with
    | ok q => simp [sameOutcome, Except.map, notBy, notOf]
    | error e' =>
      -- Two operators that leave the calendar are the two that ask for a window.
      rcases operator_of_leafOf_error named fits made with rfl | rfl
      · rcases operator_of_leafOf_error named' fits' made' with rfl | rfl
        · exact absurd rfl different
        · cases apart
      · rcases operator_of_leafOf_error named' fits' made' with rfl | rfl
        · cases apart
        · exact absurd rfl different

end Condition

/-- A condition that the rules accept comes out as one whose operator its field does not
    allow only in disguise, windows of dates aside: one of the two is a `not_equals` of
    an object that writes out the test of a `not_contains`, the other. This is for every
    matrix, operand and present moment, and for every condition that the rules would
    accept if its field allowed the operator. -/
theorem sameOutcome_iff_disguised (m : Matrix) (entity : String) (now : Now) (c d : Condition) (op : Operator)
    (accepted : c.violations m entity = []) (sameField : d.field = c.field) (named : d.operator = op.name)
    (refused : m.isAllowed entity d.field d.operator = false)
    (acceptedThen : d.violations (m.allow entity d.field op) entity = [])
    (windows : ¬ (c.operator = "date_equals" ∧ d.operator = "date_relative"))
    (windows' : ¬ (c.operator = "date_relative" ∧ d.operator = "date_equals")) :
    sameOutcome (c.compile .nest now) (d.compile .nest now) = true ↔ c.Disguises d ∨ d.Disguises c := by
  obtain ⟨allowed, own, listed, ownNamed, inside, fits⟩ := Condition.violations_eq_nil_iff.mp accepted
  obtain ⟨-, fits'⟩ := (Condition.violations_allow_eq_nil_iff named).mp acceptedThen
  refine Condition.sameOutcome_compile_iff ownNamed named ?_ ?_ sameField fits fits'
  · rintro rfl
    have isAllowed : m.isAllowed entity d.field d.operator = true := by
      rw [sameField, named]
      exact Matrix.isAllowed_iff.mpr ⟨allowed, own, listed, inside, rfl⟩
    exact absurd (refused.symm.trans isAllowed) Bool.false_ne_true
  · rw [areWindows, Bool.or_eq_false_iff, beq_eq_false_iff_ne, beq_eq_false_iff_ne]
    constructor
    · intro same
      cases same
      exact windows ⟨ownNamed, named⟩
    · intro same
      cases same
      exact windows' ⟨ownNamed, named⟩

/-- The status of a deal allows `not_equals` and not `not_contains`; the rules accept an
    object under the first that asks for the second. -/
theorem not_equals_disguises_not_contains :
    let now : Now := ⟨⟨⟨2024, 5, 15, by decide⟩, .midnight, none⟩, none⟩
    let c : Condition := ⟨"status", "not_equals", .obj [("contains", .str "x"), ("mode", .str "insensitive")], .null⟩
    let d : Condition := ⟨"status", "not_contains", .str "x", .null⟩
    c.violations .packaged "deals" = [] ∧ Matrix.packaged.isAllowed "deals" "status" "not_contains" = false ∧
      d.violations (Matrix.packaged.allow "deals" "status" .notContains) "deals" = [] ∧
      c.compile .nest now = d.compile .nest now :=
  ⟨by decide, by decide, by decide, rfl⟩

/-- An object with the entries the other way round does the same. -/
theorem sameOutcome_iff_disguised_of_status :
    let now : Now := ⟨⟨⟨2024, 5, 15, by decide⟩, .midnight, none⟩, none⟩
    let c : Condition := ⟨"status", "not_equals", .obj [("mode", .str "insensitive"), ("contains", .str "x")], .null⟩
    let d : Condition := ⟨"status", "not_contains", .str "x", .null⟩
    sameOutcome (c.compile .nest now) (d.compile .nest now) = true ∧
      (sameOutcome (c.compile .nest now) (d.compile .nest now) = true ↔ c.Disguises d ∨ d.Disguises c) :=
  ⟨rfl, sameOutcome_iff_disguised .packaged "deals" _ _ _ .notContains (by decide) rfl rfl (by decide) (by decide)
    (by decide) (by decide)⟩

end Criteria
