import Criteria.Proofs.Levels
import Criteria.Proofs.Operands
import Mathlib.Data.List.Infix

/-!
Filters in words. A tree of groups and conditions always has words (`sentence?_eq_some`), and
the words of each condition stand in them (`describe_standsIn_words`). So a subgroup is left
out exactly if it has no condition at any depth (`words_eq_empty_iff`), and a filter whose
operators are known reads like a filter without conditions only if it is one
(`describe?_eq_noFilters_iff`).
-/
namespace Criteria

/-! ### Texts in texts -/

/-- A text stands somewhere in another one. -/
def StandsIn (part text : String) : Prop := part.toList <:+: text.toList

namespace StandsIn

theorem refl (s : String) : StandsIn s s := List.infix_refl _

theorem trans {s t u : String} (inner : StandsIn s t) (outer : StandsIn t u) : StandsIn s u :=
  List.IsInfix.trans inner outer

theorem append_left (s : String) {t u : String} (inside : StandsIn t u) : StandsIn t (s ++ u) := by
  rw [StandsIn, String.toList_append]
  exact List.IsInfix.trans inside (List.suffix_append _ _).isInfix

theorem append_right {s t : String} (u : String) (inside : StandsIn s t) : StandsIn s (t ++ u) := by
  rw [StandsIn, String.toList_append]
  exact List.IsInfix.trans inside (List.prefix_append _ _).isInfix

theorem intercalate (separator : String) {part : String} {parts : List String} (inside : part ∈ parts) :
    StandsIn part (separator.intercalate parts) := by
  induction parts with
  | nil => exact absurd inside List.not_mem_nil
  | cons first rest ih =>
    cases rest with
    | nil =>
      rw [List.mem_singleton.mp inside, String.intercalate_singleton]
      exact refl first
    | cons second others =>
      rw [String.intercalate_cons_cons]
      rcases List.mem_cons.mp inside with rfl | later
      · exact ((refl part).append_right separator).append_right _
      · exact (ih later).append_left _

theorem ne_empty {part text : String} (inside : StandsIn part text) (some : part ≠ "") : text ≠ "" := by
  rintro rfl
  rw [StandsIn, String.toList_empty, List.infix_nil, String.toList_eq_nil_iff] at inside
  exact some inside

end StandsIn

/-! ### Conditions -/

namespace Condition

theorem subject_standsIn_describe (labels : Labels) (c : Condition) :
    StandsIn (" " ++ spaced c.operator) (c.describe labels) := by
  have inside : StandsIn (" " ++ spaced c.operator) (c.subject labels) := by
    rw [subject, String.append_assoc]
    exact (StandsIn.refl _).append_left _
  rw [describe_eq]
  exact inside.append_right _

theorem describe_ne_empty (labels : Labels) (c : Condition) : c.describe labels ≠ "" := by
  refine (c.subject_standsIn_describe labels).ne_empty fun same => ?_
  simpa using congrArg String.length same

end Condition

namespace Group

/-! ### Trees -/

mutual

/-- The words of a tree, empty if it has no conditions. A foreign value has none. -/
def words (labels : Labels) (nested : Bool) : Group → String
  | node operator members groups =>
    joinParts operator nested (members.filterMap (Member.describe? labels) ++ wordsOfAll labels groups)
  | foreign _ => ""

/-- The words of several subgroups, those without conditions left out. -/
def wordsOfAll (labels : Labels) : List Group → List String
  | [] => []
  | g :: rest =>
    let first := words labels true g
    if first == "" then wordsOfAll labels rest else first :: wordsOfAll labels rest

end

variable {labels : Labels}

theorem wordsOfAll_eq_filter (groups : List Group) :
    wordsOfAll labels groups = (groups.map (words labels true)).filter (· != "") := by
  induction groups with
  | nil => rfl
  | cons g rest ih =>
    rw [wordsOfAll, ih, List.map_cons, List.filter_cons]
    by_cases none : words labels true g = ""
    · simp [none]
    · simp [none]

theorem words_node (nested : Bool) (operator : String) (cs : List Condition) (groups : List Group) :
    words labels nested (node operator (cs.map .condition) groups) =
      joinParts operator nested (cs.map (·.describe labels) ++ (groups.map (words labels true)).filter (· != "")) := by
  rw [words, wordsOfAll_eq_filter, List.filterMap_map]
  congr 2
  exact congrFun (List.filterMap_eq_map (f := (·.describe labels))) cs

theorem mapM_describe? (cs : List Condition) :
    (cs.map Member.condition).mapM (Member.describe? labels) = some (cs.map (·.describe labels)) := by
  induction cs with
  | nil => rfl
  | cons c rest ih =>
    rw [List.map_cons, List.mapM_cons, ih]
    rfl

theorem sentences?_eq_some {groups : List Group}
    (each : ∀ g ∈ groups, g.sentence? labels true = some (g.words labels true)) :
    sentences? labels groups = some (wordsOfAll labels groups) := by
  induction groups with
  | nil => rfl
  | cons g rest ih =>
    obtain ⟨head, tail⟩ := List.forall_mem_cons.mp each
    rw [sentences?, head, ih tail]
    rfl

theorem sentence?_eq_some {g : Group} (plain : g.Plain) (nested : Bool) :
    g.sentence? labels nested = some (g.words labels nested) := by
  induction plain generalizing nested with
  | node operator cs subgroups ih =>
    rw [words, sentence?, mapM_describe?, sentences?_eq_some fun g inside => ih g inside true, List.filterMap_map]
    exact congrArg (fun own => some (joinParts operator nested (own ++ _)))
      (congrFun (List.filterMap_eq_map (f := (·.describe labels))) cs).symm

theorem standsIn_joinParts (operator : String) (nested : Bool) {part : String} {parts : List String}
    (inside : part ∈ parts) : StandsIn part (joinParts operator nested parts) := by
  have joined := StandsIn.intercalate (" " ++ operator ++ " ") inside
  unfold joinParts
  simp only
  split
  · exact (joined.append_left "(").append_right ")"
  · exact joined

/-- The words of a condition, at any depth, stand in those of the tree. -/
theorem describe_standsIn_words (labels : Labels) {g : Group} (plain : g.Plain) (nested : Bool) {c : Condition}
    (inside : c ∈ g.conditions) : StandsIn (c.describe labels) (g.words labels nested) := by
  induction plain generalizing nested with
  | node operator cs subgroups ih =>
    rw [words_node]
    rcases mem_conditions_node_iff.mp inside with member | ⟨g, subgroup, deeper⟩
    · have listed : c ∈ cs := by simpa using member
      exact standsIn_joinParts _ _ (List.mem_append_left _ (List.mem_map_of_mem listed))
    · have inner := ih g subgroup true deeper
      refine inner.trans (standsIn_joinParts _ _ (List.mem_append_right _ (List.mem_filter.mpr ⟨?_, ?_⟩)))
      · exact List.mem_map_of_mem subgroup
      · exact bne_iff_ne.mpr (inner.ne_empty (c.describe_ne_empty labels))

/-- A tree has no words exactly if it has no condition at any depth. -/
theorem words_eq_empty_iff (labels : Labels) {g : Group} (plain : g.Plain) (nested : Bool) :
    g.words labels nested = "" ↔ g.conditions = [] := by
  constructor
  · intro none
    refine List.eq_nil_iff_forall_not_mem.mpr fun c inside => ?_
    exact (describe_standsIn_words labels plain nested inside).ne_empty (c.describe_ne_empty labels) none
  · intro none
    induction plain generalizing nested with
    | @node operator cs groups subgroups ih =>
      rw [conditions_node, List.append_eq_nil_iff, List.flatMap_eq_nil_iff] at none
      obtain ⟨noOwn, noNested⟩ := none
      have silent : (groups.map (words labels true)).filter (· != "") = [] := by
        refine List.filter_eq_nil_iff.mpr fun text listed => ?_
        obtain ⟨g, inside, rfl⟩ := List.mem_map.mp listed
        simp [ih g inside true (noNested g inside)]
      rw [words_node, noOwn, silent]
      simp [joinParts]

/-! ### Filters -/

/-- No filter reads like the text for a filter without conditions and has a known operator in it. -/
theorem not_standsIn_noFilters (op : Operator) : ¬ StandsIn (" " ++ spaced op.name) noFilters := by
  cases op <;> unfold StandsIn <;> decide

/-- A filter reads like one without conditions exactly if it is one, if its operators are known. -/
theorem describe?_eq_noFilters_iff {g : Group} (plain : g.Plain)
    (known : ∀ c ∈ g.conditions, ∃ op : Operator, c.operator = op.name) :
    g.describe? labels = some noFilters ↔ g.conditions = [] := by
  rw [describe?, sentence?_eq_some plain, Option.map_some, Option.some.injEq]
  constructor
  · intro same
    by_contra some
    obtain ⟨c, inside⟩ := List.exists_mem_of_ne_nil _ some
    obtain ⟨op, named⟩ := known c inside
    -- The operator of a condition would stand in the text.
    have words := describe_standsIn_words labels plain false inside
    have given := words.ne_empty (c.describe_ne_empty labels)
    rw [if_neg (by simpa using given)] at same
    rw [same] at words
    refine not_standsIn_noFilters op ?_
    rw [← named]
    exact (c.subject_standsIn_describe labels).trans words
  · intro none
    rw [(words_eq_empty_iff labels plain false).mpr none]
    rfl

end Group

end Criteria
