import Criteria.Proofs.Disguise
import Criteria.Text.Segments

/-!
What the predicate of a condition tells of it. The names of the tests are known
(`Predicate.testNames`), so that the path of a field stops where they begin
(`Predicate.agrees_nest_iff`), and the segments of a path give the name of the field back
(`fieldPath_injective`). The leaf of a condition is made from its operator and from what it compares
its field with, its comparand (`Condition.leafOf_eq_test`), and tells both
(`Condition.Tests.agree_iff`). Hence the predicate of an accepted condition determines the field, the
operator and the comparand, unless it asks for a window of dates (`compile_lossless`).
-/
namespace Criteria

open Calendar (Moment Now)

/-! ### Operands -/

namespace Predicate

mutual

theorem ofJson_inj : ∀ {x y : Json}, ofJson x = ofJson y → x = y
  | .null, y, same => by cases y <;> simp_all [ofJson]
  | .bool _, y, same => by cases y <;> simp_all [ofJson]
  | .int _, y, same => by cases y <;> simp_all [ofJson]
  | .float _, y, same => by cases y <;> simp_all [ofJson]
  | .str _, y, same => by cases y <;> simp_all [ofJson]
  | .arr xs, y, same => by
    cases y with
    | arr ys =>
      rw [ofJson, ofJson, list.injEq] at same
      rw [ofItems_inj same]
    | _ => cases same
  | .obj xs, y, same => by
    cases y with
    | obj ys =>
      rw [ofJson, ofJson, object.injEq] at same
      rw [ofEntries_inj same]
    | _ => cases same

theorem ofItems_inj : ∀ {xs ys : List Json}, ofItems xs = ofItems ys → xs = ys
  | [], [], _ => rfl
  | [], _ :: _, same => by cases same
  | _ :: _, [], same => by cases same
  | x :: xs, y :: ys, same => by
    rw [ofItems, ofItems, List.cons.injEq] at same
    rw [ofJson_inj same.1, ofItems_inj same.2]

theorem ofEntries_inj : ∀ {xs ys : List (String × Json)}, ofEntries xs = ofEntries ys → xs = ys
  | [], [], _ => rfl
  | [], _ :: _, same => by cases same
  | _ :: _, [], same => by cases same
  | (k, x) :: xs, (l, y) :: ys, same => by
    rw [ofEntries, ofEntries, List.cons.injEq, Prod.mk.injEq] at same
    rw [same.1.1, ofJson_inj same.1.2, ofEntries_inj same.2]

end

theorem agrees_list (ps qs : List Predicate) : (list ps).agrees (list qs) = agreeItems ps qs := by
  rw [agrees]

theorem agrees_pair (k l : String) (p q p' q' : Predicate) :
    agrees (object [(k, p), (l, q)]) (object [(k, p'), (l, q')]) = (p.agrees p' && q.agrees q') := by
  simp [agrees, agreeEntries]

/-! ### Paths -/

/-- The names of the entries of leaves. -/
def testNames : List String :=
  ["equals", "not", "gt", "gte", "lt", "lte", "contains", "startsWith", "endsWith", "mode", "in", "notIn"]

/-- The names of a path are no names of tests. -/
def Avoids (path : List String) : Prop := ∀ segment ∈ path, segment ∉ testNames

/-- A predicate is an object whose entries are tests. -/
def IsTest (p : Predicate) : Prop :=
  ∃ entries : List (String × Predicate), p = object entries ∧ ∀ e ∈ entries, e.1 ∈ testNames

variable {p q : Predicate} {path path' : List String} {segment : String}

theorem IsTest.mem_testNames (test : p.IsTest) (same : p.agrees (object [(segment, q)]) = true) :
    segment ∈ testNames := by
  obtain ⟨entries, rfl, named⟩ := test
  have names := perm_of_agreeEntries same
  obtain ⟨e, inside, rfl⟩ := List.mem_map.mp (names.symm.subset List.mem_cons_self)
  exact named e inside

theorem agrees_entry_iff {k l : String} :
    agrees (object [(k, p)]) (object [(l, q)]) = true ↔ k = l ∧ p.agrees q = true := by
  constructor
  · intro same
    have names := perm_of_agreeEntries same
    obtain rfl : k = l := by simpa using names
    exact ⟨rfl, (agrees_single k p q).symm.trans same⟩
  · rintro ⟨rfl, same⟩
    exact (agrees_single k p q).trans same

/-- Tests under paths that avoid the names of tests agree exactly if their paths are equal and
    they agree themselves. -/
theorem agrees_nest_iff (avoids : Avoids path) (avoids' : Avoids path') (test : p.IsTest) (test' : q.IsTest) :
    (nest path p).agrees (nest path' q) = true ↔ path = path' ∧ p.agrees q = true := by
  induction path generalizing path' with
  | nil =>
    cases path' with
    | nil => exact (and_iff_right rfl).symm
    | cons segment rest =>
      refine iff_of_false ?_ fun both => List.cons_ne_nil _ _ both.1.symm
      intro same
      exact avoids' segment List.mem_cons_self (test.mem_testNames same)
  | cons segment rest ih =>
    cases path' with
    | nil =>
      refine iff_of_false ?_ fun both => List.cons_ne_nil _ _ both.1
      intro same
      exact avoids segment List.mem_cons_self (test'.mem_testNames (agrees_symm same))
    | cons segment' rest' =>
      have later : Avoids rest := fun s inside => avoids s (List.mem_cons_of_mem _ inside)
      have later' : Avoids rest' := fun s inside => avoids' s (List.mem_cons_of_mem _ inside)
      refine agrees_entry_iff.trans ?_
      rw [List.cons.injEq, and_assoc]
      exact and_congr_right fun _ => ih later later'

theorem nest_inj (same : nest path p = nest path q) : p = q := by
  induction path with
  | nil => exact same
  | cons segment rest ih =>
    simp only [nest, List.foldr_cons, object.injEq, List.cons.injEq, Prod.mk.injEq, true_and, and_true] at same
    exact ih same

end Predicate

instance (path : List String) : Decidable (Predicate.Avoids path) :=
  inferInstanceAs (Decidable (∀ segment ∈ path, segment ∉ Predicate.testNames))

/-- A field is named by its path. -/
theorem fieldPath_injective : Function.Injective fieldPath := by
  intro f f' same
  have segments : Text.segments '.' f.toList = Text.segments '.' f'.toList :=
    List.map_injective_iff.mpr (fun _ _ => String.ofList_inj.mp) same
  rw [← String.toList_inj, ← Text.intercalate_segments '.' f.toList, segments, Text.intercalate_segments]

/-- No segment of a field of a matrix is the name of a test. -/
def Matrix.AvoidsTests (m : Matrix) : Prop :=
  ∀ row ∈ m.fields, ∀ entry ∈ row.2, Predicate.Avoids (fieldPath entry.1)

instance (m : Matrix) : Decidable m.AvoidsTests :=
  inferInstanceAs (Decidable (∀ row ∈ m.fields, ∀ entry ∈ row.2, Predicate.Avoids (fieldPath entry.1)))

theorem Matrix.AvoidsTests.of_operators? {m : Matrix} {entity : Scalar} {field : String} {allowed : List Operator}
    (avoids : m.AvoidsTests) (listed : m.operators? entity field = some allowed) :
    Predicate.Avoids (fieldPath field) := by
  unfold operators? fieldsOf at listed
  cases found : m.fields.lookup entity with
  | none => simp [found] at listed
  | some rows =>
    rw [found, Option.getD_some] at listed
    obtain ⟨before, after, split, -⟩ := List.lookup_eq_some_iff.mp found
    obtain ⟨first, last, split', -⟩ := List.lookup_eq_some_iff.mp listed
    refine avoids (entity, rows) ?_ (field, allowed) ?_
    · simp [split]
    · simp [split']

/-! ### Comparands -/

/-- What a test compares a field with. -/
inductive Comparand where
  | nothing
  | value (x : Json)
  | bounds (low high : Json)
  | choices (items : List Json)
  | moment (m : Moment)
  | span (first last : Moment)

namespace Comparand

/-- What stands in the test for a comparand. -/
def operands : Comparand → List Predicate
  | nothing => [.null]
  | value x => [.ofJson x]
  | bounds low high => [.ofJson low, .ofJson high]
  | choices items => [.list (Predicate.ofItems items)]
  | moment m => [.moment m]
  | span first last => [.moment first, .moment last]

/-- Whether two comparands of one kind say the same, as predicates do. -/
def agrees : Comparand → Comparand → Bool
  | nothing, nothing => true
  | value x, value y => (Predicate.ofJson x).agrees (.ofJson y)
  | bounds low high, bounds low' high' =>
    (Predicate.ofJson low).agrees (.ofJson low') && (Predicate.ofJson high).agrees (.ofJson high')
  | choices xs, choices ys => Predicate.agreeItems (Predicate.ofItems xs) (Predicate.ofItems ys)
  | moment m, moment n => (Predicate.moment m).agrees (.moment n)
  | span first last, span first' last' =>
    (Predicate.moment first).agrees (.moment first') && (Predicate.moment last).agrees (.moment last')
  | _, _ => false

end Comparand

/-- The test of an operator for a comparand. The mode stands last, where there is one. -/
def Operator.test (op : Operator) (x : Comparand) : Predicate :=
  let tested (names : List String) := Predicate.object (names.zip (x.operands ++ [.text "insensitive"]))
  if op = .notContains then .object [("not", tested Operator.contains.keys)] else tested op.keys

theorem Operator.keys_subset (op : Operator) : op.keys ⊆ Predicate.testNames := by
  cases op <;> decide

namespace Condition

/-- What a condition compares its field with under an operator: two bounds or the dates that
    they write; a set, which `values` gives unless it is null; the date that is written; nothing or
    the value otherwise. It is not said for the operators that ask for a window of dates. -/
def ComparesWith (c : Condition) : Operator → Comparand → Prop
  | .between, x => ∃ low high, c.value = .arr [low, high] ∧ x = .bounds low high
  | .dateBetween, x => ∃ low high first last,
      c.value = .arr [low, high] ∧ dateOperand low = .ok first ∧ dateOperand high = .ok last ∧ x = .span first last
  | .oneOf, x | .noneOf, x =>
    ∃ items, (c.values = .arr items ∨ c.values = .null ∧ c.value = .arr items) ∧ x = .choices items
  | .isEmpty, x | .isNotEmpty, x => x = .nothing
  | .dateBefore, x | .dateAfter, x => ∃ moment, dateOperand c.value = .ok moment ∧ x = .moment moment
  | .dateEquals, _ | .dateRelative, _ => False
  | _, x => x = .value c.value

variable {now : Now} {c d : Condition} {op a b : Operator} {x y : Comparand} {p q : Predicate}

theorem exists_comparesWith (fits : c.Fits op) (whole : op ≠ .dateEquals) (absolute : op ≠ .dateRelative) :
    ∃ x, c.ComparesWith op x := by
  cases op with
  | between =>
    obtain ⟨low, high, pair⟩ := fits
    exact ⟨_, low, high, pair, rfl⟩
  | dateBetween =>
    obtain ⟨low, high, first, last, pair, read, read'⟩ := fits
    exact ⟨_, low, high, first, last, pair, read, read', rfl⟩
  | oneOf | noneOf =>
    rcases fits with ⟨items, given⟩ | ⟨none, items, given⟩
    · exact ⟨_, items, .inl given, rfl⟩
    · exact ⟨_, items, .inr ⟨none, given⟩, rfl⟩
  | dateBefore | dateAfter =>
    obtain ⟨moment, read⟩ := fits
    exact ⟨_, moment, read, rfl⟩
  | dateEquals => exact absurd rfl whole
  | dateRelative => exact absurd rfl absolute
  | _ => exact ⟨_, rfl⟩

theorem operandSet_eq {items : List Json} (given : c.values = .arr items ∨ c.values = .null ∧ c.value = .arr items) :
    c.operandSet = .ok items := by
  rcases given with given | ⟨none, given⟩
  · simp [operandSet, given, Json.isNull, Json.members?]
  · simp [operandSet, none, given, Json.isNull]

/-- The leaf of a condition is the test for its comparand. -/
theorem leafOf_eq_test (compares : c.ComparesWith op x) : c.leafOf now op = .ok (op.test x) := by
  cases op with
  | between =>
    obtain ⟨low, high, pair, rfl⟩ := compares
    rw [leafOf, pair]
    rfl
  | dateBetween =>
    obtain ⟨low, high, first, last, pair, read, later, rfl⟩ := compares
    rw [leafOf, pair]
    simp only [pairOf, bind, Except.bind, momentOf_eq_ok_iff.mpr read, momentOf_eq_ok_iff.mpr later]
    rfl
  | oneOf | noneOf =>
    obtain ⟨items, given, rfl⟩ := compares
    rw [leafOf, operandSet_eq given]
    rfl
  | dateBefore | dateAfter =>
    obtain ⟨moment, read, rfl⟩ := compares
    rw [leafOf, momentOf_eq_ok_iff.mpr read]
    rfl
  | dateEquals | dateRelative => exact compares.elim
  | _ =>
    obtain rfl := compares
    rfl

/-- The tests of one operator say the same exactly if their comparands do. -/
theorem tests_agree_iff (compares : c.ComparesWith op x) (compares' : d.ComparesWith op y) :
    (op.test x = op.test y ↔ x = y) ∧ ((op.test x).agrees (op.test y) = true ↔ x.agrees y = true) := by
  have operand {v w : Json} : Predicate.ofJson v = Predicate.ofJson w ↔ v = w := ⟨Predicate.ofJson_inj, congrArg _⟩
  have operands {vs ws : List Json} : Predicate.ofItems vs = Predicate.ofItems ws ↔ vs = ws :=
    ⟨Predicate.ofItems_inj, congrArg _⟩
  cases op with
  | isEmpty | isNotEmpty =>
    obtain rfl := compares
    obtain rfl := compares'
    simp [Comparand.agrees, Predicate.agrees_refl]
  | between =>
    obtain ⟨low, high, -, rfl⟩ := compares
    obtain ⟨low', high', -, rfl⟩ := compares'
    simp [Operator.test, Operator.keys, Comparand.operands, Comparand.agrees, Predicate.agrees_pair, operand]
  | dateBetween =>
    obtain ⟨_, _, first, last, -, -, -, rfl⟩ := compares
    obtain ⟨_, _, first', last', -, -, -, rfl⟩ := compares'
    simp [Operator.test, Operator.keys, Comparand.operands, Comparand.agrees, Predicate.agrees_pair]
  | oneOf | noneOf =>
    obtain ⟨items, -, rfl⟩ := compares
    obtain ⟨items', -, rfl⟩ := compares'
    simp [Operator.test, Operator.keys, Comparand.operands, Comparand.agrees, Predicate.agrees_list, operands]
  | dateBefore | dateAfter =>
    obtain ⟨moment, -, rfl⟩ := compares
    obtain ⟨moment', -, rfl⟩ := compares'
    simp [Operator.test, Operator.keys, Comparand.operands, Comparand.agrees]
  | dateEquals | dateRelative => exact compares.elim
  | _ =>
    obtain rfl := compares
    obtain rfl := compares'
    simp [Operator.test, Operator.keys, Comparand.operands, Comparand.agrees, Predicate.agrees_pair,
      Predicate.agrees_refl, operand]

theorem isTest_test (compares : c.ComparesWith op x) (now : Now) : (op.test x).IsTest := by
  have made : c.leafOf now op = .ok (op.test x) := leafOf_eq_test compares
  obtain ⟨entries, isObject, keys⟩ := leafOf_keys made
  refine ⟨entries, isObject, ?_⟩
  intro e inside
  apply op.keys_subset
  rw [← keys]
  exact List.mem_map_of_mem inside

/-- An operand that is no object is no disguise. -/
theorem not_disguises (plain : ∀ entries, c.value ≠ .obj entries) : ¬ c.Disguises d := by
  rintro ⟨-, -, x, written | written, -⟩
  · exact plain _ written
  · exact plain _ written

/-- A condition tests its field with an operator and a comparand. Its operand fits and is no object. -/
structure Tests (c : Condition) (op : Operator) (x : Comparand) : Prop where
  named : c.operator = op.name
  fits : c.Fits op
  plain : ∀ entries, c.value ≠ .obj entries
  compares : c.ComparesWith op x

theorem Tests.compile_eq (tests : c.Tests op x) (now : Now) :
    c.compile .nest now = .ok (.nest c.path (op.test x)) := by
  apply compile_eq_ok_iff.mpr
  refine ⟨op.test x, ?_, rfl⟩
  rw [leaf_eq_leafOf tests.named]
  exact leafOf_eq_test tests.compares

/-- Tests say the same exactly if they have one operator and their comparands say the same. -/
theorem Tests.agree_iff (tests : c.Tests a x) (tests' : d.Tests b y) (now : Now) :
    (a.test x = b.test y ↔ a = b ∧ x = y) ∧ ((a.test x).agrees (b.test y) = true ↔ a = b ∧ x.agrees y = true) := by
  by_cases same : a = b
  · subst same
    simpa using tests_agree_iff tests.compares tests'.compares
  · have apart : areWindows a b = false := by
      have none := tests.compares
      cases a <;> first | exact none.elim | rfl
    have made : c.leafOf now a = .ok (a.test x) := leafOf_eq_test tests.compares
    have made' : d.leafOf now b = .ok (b.test y) := leafOf_eq_test tests'.compares
    have differ : ¬ (a.test x).agrees (b.test y) = true := by
      rw [agrees_iff_disguised tests.named tests'.named same apart tests.fits tests'.fits made made', not_or]
      exact ⟨not_disguises tests.plain, not_disguises tests'.plain⟩
    have unequal : a.test x ≠ b.test y := by
      intro equal
      rw [equal] at differ
      exact differ (Predicate.agrees_refl _)
    simp [same, differ, unequal]

variable {m : Matrix} {entity : String}

/-- An accepted condition that asks for no window of dates tests its field. -/
theorem exists_tests_of_accepted (accepted : c.violations m entity = []) (plain : ∀ entries, c.value ≠ .obj entries)
    (noWindow : c.operator ≠ "date_equals" ∧ c.operator ≠ "date_relative") : ∃ op x, c.Tests op x := by
  obtain ⟨allowed, op, -, named, -, fits⟩ := violations_eq_nil_iff.mp accepted
  have whole : op ≠ .dateEquals := by
    rintro rfl
    exact noWindow.1 named
  have absolute : op ≠ .dateRelative := by
    rintro rfl
    exact noWindow.2 named
  obtain ⟨x, compares⟩ := exists_comparesWith fits whole absolute
  exact ⟨op, x, named, fits, plain, compares⟩

theorem avoids_of_accepted (avoids : m.AvoidsTests) (accepted : c.violations m entity = []) :
    Predicate.Avoids c.path := by
  obtain ⟨allowed, a, listed, -⟩ := violations_eq_nil_iff.mp accepted
  exact avoids.of_operators? listed

end Condition

/-- Nothing is lost in the predicates of accepted conditions, if no field of the matrix goes through the
    name of a test, no operand is an object and neither condition asks for a window of dates. Both have
    predicates. These are equal exactly if the conditions are on one field, with one operator and with
    equal comparands; and they say the same to a store exactly if the comparands do. -/
theorem compile_lossless (m : Matrix) (avoids : m.AvoidsTests) (entity : String) (now : Now) (c d : Condition)
    (accepted : c.violations m entity = []) (accepted' : d.violations m entity = [])
    (plain : ∀ entries, c.value ≠ .obj entries) (plain' : ∀ entries, d.value ≠ .obj entries)
    (noWindow : c.operator ≠ "date_equals" ∧ c.operator ≠ "date_relative")
    (noWindow' : d.operator ≠ "date_equals" ∧ d.operator ≠ "date_relative") :
    ∃ (a b : Operator) (x y : Comparand) (p q : Predicate),
      c.operator = a.name ∧ c.ComparesWith a x ∧ c.compile .nest now = .ok p ∧
      d.operator = b.name ∧ d.ComparesWith b y ∧ d.compile .nest now = .ok q ∧
      (p = q ↔ c.field = d.field ∧ a = b ∧ x = y) ∧
      (p.agrees q = true ↔ c.field = d.field ∧ a = b ∧ x.agrees y = true) := by
  obtain ⟨a, x, tests⟩ := Condition.exists_tests_of_accepted accepted plain noWindow
  obtain ⟨b, y, tests'⟩ := Condition.exists_tests_of_accepted accepted' plain' noWindow'
  obtain ⟨equal, agreed⟩ := tests.agree_iff tests' now
  have placed : (Predicate.nest c.path (a.test x)).agrees (.nest d.path (b.test y)) = true ↔
      c.path = d.path ∧ (a.test x).agrees (b.test y) = true :=
    Predicate.agrees_nest_iff (Condition.avoids_of_accepted avoids accepted)
      (Condition.avoids_of_accepted avoids accepted') (Condition.isTest_test tests.compares now)
      (Condition.isTest_test tests'.compares now)
  have field : c.path = d.path ↔ c.field = d.field := fieldPath_injective.eq_iff
  refine ⟨a, b, x, y, _, _, tests.named, tests.compares, tests.compile_eq now, tests'.named, tests'.compares,
    tests'.compile_eq now, ?_, ?_⟩
  · rw [← equal, ← field]
    constructor
    · intro same
      -- Equal predicates say the same, so the paths are equal and can be taken away.
      have path : c.path = d.path := by
        refine (placed.mp ?_).1
        rw [same]
        exact Predicate.agrees_refl _
      rw [path] at same
      exact ⟨path, Predicate.nest_inj same⟩
    · rintro ⟨path, test⟩
      rw [path, test]
  · rw [placed, agreed, field]

/-- The industry of a company is one of two, given by either of the names for a set. -/
theorem compile_lossless_of_industry :
    let now : Now := ⟨⟨⟨2024, 5, 15, by decide⟩, .midnight, none⟩, none⟩
    let c : Condition := ⟨"company.industry", "in", .null, .arr [.str "Energy", .str "Health"]⟩
    let d : Condition := ⟨"company.industry", "in", .arr [.str "Energy", .str "Health"], .null⟩
    Matrix.packaged.AvoidsTests ∧ c.violations .packaged "contacts" = [] ∧ d.violations .packaged "contacts" = [] ∧
      c.compile .nest now = d.compile .nest now ∧
      ∃ x y, c.ComparesWith .oneOf x ∧ d.ComparesWith .oneOf y ∧ x = y := by
  intro now c d
  have avoids : Matrix.packaged.AvoidsTests := by decide
  have accepted : c.violations .packaged "contacts" = [] := by decide
  have accepted' : d.violations .packaged "contacts" = [] := by decide
  have alike : c.compile .nest now = d.compile .nest now := rfl
  obtain ⟨a, b, x, y, p, q, named, compares, compiled, named', compares', compiled', equal, -⟩ :=
    compile_lossless .packaged avoids "contacts" now c d accepted accepted' nofun nofun (by decide) (by decide)
  obtain rfl : .oneOf = a := Operator.name_inj named
  obtain rfl : .oneOf = b := Operator.name_inj named'
  have same : p = q := Except.ok.inj (compiled.symm.trans (alike.trans compiled'))
  exact ⟨avoids, accepted, accepted', alike, x, y, compares, compares', (equal.mp same).2.2⟩

end Criteria
