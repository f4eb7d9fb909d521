import Criteria.Proofs.Comparand
import Criteria.Proofs.Operands

/-!
The two places of a set of operands. An operator that takes sets finds its set in `values`
or, if there is none, in `value`. The rules and compilation read it alike from both
places (`Condition.testsAlike_inEither`). The words of a condition do so too unless the set
is empty: in `values` it is not shown at all, and in `value` it leaves the blank that
stands before an operand (`Condition.describe_inValues_eq_iff`).
-/
namespace Criteria.Condition

open Calendar (Now)

/-- A condition that has a set of operands in `values`. -/
def inValues (field : String) (op : Operator) (xs : List Json) : Condition := ⟨field, op.name, .null, .arr xs⟩

/-- A condition that has a set of operands in `value`. -/
def inValue (field : String) (op : Operator) (xs : List Json) : Condition := ⟨field, op.name, .arr xs, .null⟩

/-- A condition with a set of operands, in one place or in the other. -/
def InEither (c : Condition) (field : String) (op : Operator) (xs : List Json) : Prop :=
  c = inValues field op xs ∨ c = inValue field op xs

variable {c d : Condition} {field : String} {op : Operator} {xs : List Json}

namespace InEither

theorem field_eq (either : c.InEither field op xs) : c.field = field := by
  rcases either with rfl | rfl <;> rfl

theorem operator_eq (either : c.InEither field op xs) : c.operator = op.name := by
  rcases either with rfl | rfl <;> rfl

theorem given (either : c.InEither field op xs) : c.values = .arr xs ∨ c.values = .null ∧ c.value = .arr xs := by
  rcases either with rfl | rfl
  · exact .inl rfl
  · exact .inr ⟨rfl, rfl⟩

theorem fits (either : c.InEither field op xs) (set : op = .oneOf ∨ op = .noneOf) : c.Fits op := by
  have given : (∃ xs, c.values = .arr xs) ∨ c.values = .null ∧ ∃ xs, c.value = .arr xs := by
    rcases either.given with given | ⟨none, given⟩
    · exact .inl ⟨xs, given⟩
    · exact .inr ⟨none, xs, given⟩
  rcases set with rfl | rfl
  · exact given
  · exact given

theorem comparesWith (either : c.InEither field op xs) (set : op = .oneOf ∨ op = .noneOf) :
    c.ComparesWith op (.choices xs) := by
  rcases set with rfl | rfl
  · exact ⟨xs, either.given, rfl⟩
  · exact ⟨xs, either.given, rfl⟩

end InEither

/-- A set is read alike from both places. -/
theorem testsAlike_inEither (set : op = .oneOf ∨ op = .noneOf) (either : c.InEither field op xs)
    (either' : d.InEither field op xs) : c.TestsAlike d := by
  have only (other : Operator) (named : d.operator = other.name) : other = op :=
    Operator.name_inj (named.symm.trans either'.operator_eq)
  refine testsAlike_of_parts (either.field_eq.trans either'.field_eq.symm)
    (either.operator_eq.trans either'.operator_eq.symm) ?_ ?_
  · intro other named
    obtain rfl := only other named
    rw [(operandViolations_eq_nil_iff c other).mpr (either.fits set),
      (operandViolations_eq_nil_iff d other).mpr (either'.fits set)]
  · intro other now named
    obtain rfl := only other named
    rw [leafOf_eq_test (either.comparesWith set), leafOf_eq_test (either'.comparesWith set)]

/-- The predicate of a condition with a set tests for the set. -/
theorem compile_inEither (set : op = .oneOf ∨ op = .noneOf) (either : c.InEither field op xs)
    (place : List String → Predicate → Predicate) (now : Now) :
    c.compile place now = .ok (place (fieldPath field) (op.test (.choices xs))) := by
  have leaf : c.leaf now = .ok (op.test (.choices xs)) := by
    rw [leaf_eq_leafOf either.operator_eq]
    exact leafOf_eq_test (either.comparesWith set)
  exact compile_eq_ok_iff.mpr ⟨_, leaf, by rw [path, either.field_eq]⟩

theorem describe_inValues (set : op = .oneOf ∨ op = .noneOf) (field : String) (xs : List Json) (labels : Labels) :
    (inValues field op xs).describe labels =
      (inValues field op xs).subject labels ++ if xs = [] then "" else " " ++ operandText (.arr xs) := by
  have shown : (inValues field op xs).shown = .set (.arr xs) := by
    rcases set with rfl | rfl <;> rfl
  rw [describe_eq, shown]
  by_cases none : xs = []
  · rw [if_pos none, none]
    rfl
  · simp [Operand.text, Operand.given?, none]

theorem describe_inValue (set : op = .oneOf ∨ op = .noneOf) (field : String) (xs : List Json) (labels : Labels) :
    (inValue field op xs).describe labels =
      (inValues field op xs).subject labels ++ (" " ++ operandText (.arr xs)) := by
  have shown : (inValue field op xs).shown = .value (.arr xs) := by
    rcases set with rfl | rfl <;> rfl
  rw [describe_eq, shown]
  rfl

theorem describe_inValues_eq_iff (set : op = .oneOf ∨ op = .noneOf) (labels : Labels) :
    (inValues field op xs).describe labels = (inValue field op xs).describe labels ↔ xs ≠ [] := by
  rw [describe_inValues set, describe_inValue set, String.append_right_inj]
  by_cases none : xs = []
  · rw [if_pos none, none]
    refine iff_of_false ?_ (not_not_intro rfl)
    decide
  · simp [none]

/-- For every matrix and entity and at every present moment, a condition whose operator takes sets breaks
    the same rules and has the same predicate, the test for its set, whether it has the set in
    `values` or in `value`. Under all labels it reads the same, unless the set is empty: then its words
    end with its operator if the set is in `values`, and with a blank if it is in `value`. -/
theorem set_in_either_place (set : op = .oneOf ∨ op = .noneOf) (field : String) (xs : List Json) :
    (∀ m entity, (inValues field op xs).violations m entity = (inValue field op xs).violations m entity) ∧
    (∀ place now, (inValues field op xs).compile place now = .ok (place (fieldPath field) (op.test (.choices xs))) ∧
      (inValue field op xs).compile place now = .ok (place (fieldPath field) (op.test (.choices xs)))) ∧
    (∀ labels, (inValues field op xs).describe labels = (inValue field op xs).describe labels ↔ xs ≠ []) ∧
    (xs = [] → ∀ labels, (inValues field op xs).describe labels = (inValues field op xs).subject labels ∧
      (inValue field op xs).describe labels = (inValues field op xs).subject labels ++ " ") := by
  have alike := testsAlike_inEither set (c := inValues field op xs) (.inl rfl) (.inr rfl)
  refine ⟨alike.violations, ?_, describe_inValues_eq_iff set, ?_⟩
  · intro place now
    exact ⟨compile_inEither set (.inl rfl) place now, compile_inEither set (.inr rfl) place now⟩
  · rintro rfl labels
    rw [describe_inValues set, describe_inValue set]
    exact ⟨String.append_empty, rfl⟩

/-- Two statuses are looked for and read the same in either place. -/
theorem set_in_either_place_statuses :
    let among : Condition := ⟨"status", "in", .null, .arr [.str "OPEN", .str "WON"]⟩
    let among' : Condition := ⟨"status", "in", .arr [.str "OPEN", .str "WON"], .null⟩
    (∀ m entity, among.violations m entity = among'.violations m entity) ∧
      (∀ now, among'.compile .nest now =
        .ok (.object [("status", .object [("in", .list [.text "OPEN", .text "WON"])])])) ∧
      among.describe [] = among'.describe [] := by
  intro among among'
  obtain ⟨violations, compile, words, -⟩ :=
    set_in_either_place (.inl rfl) "status" [.str "OPEN", .str "WON"]
  exact ⟨violations, fun now => (compile .nest now).2, (words []).mpr nofun⟩

/-- Without a status to look for the words differ in a blank. -/
theorem words_differ_without_statuses :
    let among : Condition := ⟨"status", "in", .null, .arr []⟩
    let among' : Condition := ⟨"status", "in", .arr [], .null⟩
    among.describe [] = "status in" ∧ among'.describe [] = "status in " ∧ among.describe [] ≠ among'.describe [] := by
  decide

end Criteria.Condition
