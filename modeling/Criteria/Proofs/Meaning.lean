import Criteria.Proofs.Compiled
import Criteria.Proofs.Leaf
import Criteria.Proofs.Reading

/-!
Compiling a filter keeps its meaning. A filter holds as the connectives of its groups
say, once it is known which conditions hold; a condition holds if its predicate does.
Whatever valuation is taken, a filter and its predicate hold together
(`holds_compile`), and the fragments of the predicate are those of the conditions, one
by one (`compile_conditions`).
-/
namespace Criteria

open Calendar (Now)

/-- Whether a member holds where `test` says which conditions do. -/
def Member.holds (test : Condition → Bool) : Member → Bool
  | .condition c => test c
  | .foreign _ => false

namespace Group

mutual

/-- Whether a tree holds where `test` says which conditions do: all of its conditions and
    subgroups under `AND`, some of them under `OR`. -/
def holds (test : Condition → Bool) : Group → Bool
  | node operator members groups =>
    match Connective.ofName? operator with
    | some k => k.join (members.map (Member.holds test) ++ truths test groups)
    | none => false
  | foreign _ => false

/-- Which of several trees hold. -/
def truths (test : Condition → Bool) : List Group → List Bool
  | [] => []
  | g :: rest => holds test g :: truths test rest

end

theorem truths_eq_map (test : Condition → Bool) (groups : List Group) :
    truths test groups = groups.map (holds test) := by
  induction groups with
  | nil => rfl
  | cons g rest ih => rw [truths, ih, List.map_cons]

theorem holds_node (test : Condition → Bool) (k : Connective) (own : List Condition) (groups : List Group) :
    (node k.name (own.map .condition) groups).holds test = k.join (own.map test ++ groups.map (holds test)) := by
  simp only [holds, Connective.ofName?_name, truths_eq_map, List.map_map]
  rfl

end Group

theorem fieldPath_ne_nil (field : String) : fieldPath field ≠ [] := by
  simp [fieldPath, Text.segments_ne_nil]

namespace Condition

/-- Whether a condition holds where the valuation says which fragments do. -/
def holds (v : Predicate → Bool) (now : Now) (c : Condition) : Bool :=
  match c.compile .nest now with
  | .ok p => v p
  | .error _ => false

variable {place : List String → Predicate → Predicate} {now : Now} {c : Condition} {p : Predicate}

/-- The predicate of a condition is a fragment. -/
theorem isFragment_of_compile (placed : Predicate.PlacesFragments place) (compiled : c.compile place now = .ok p) :
    p.isFragment = true := by
  obtain ⟨leaf, made, rfl⟩ := compile_eq_ok_iff.mp compiled
  obtain ⟨op, -, shaped⟩ := exists_operator_of_leaf made
  obtain ⟨entries, rfl, -⟩ := leafOf_keys shaped
  exact placed _ (fieldPath_ne_nil c.field) entries

theorem holds_of_compile (v : Predicate → Bool) (compiled : c.compile .nest now = .ok p) :
    c.holds v now = p.holds v := by
  rw [holds, compiled, Predicate.holds_of_isFragment v (isFragment_of_compile Predicate.placesFragments_nest compiled)]

end Condition

namespace Group

variable {place : List String → Predicate → Predicate} {now : Now} {limit level : Int} {g : Group} {p : Predicate}

/-- The fragments of a predicate are the predicates of the conditions of its filter, in
    order. -/
theorem compileAt_conditions (placed : Predicate.PlacesFragments place)
    (compiled : compileAt place now limit level g = .ok p) :
    g.conditions.mapM (Condition.compile place now) = .ok p.fragments := by
  rw [mapM_eq_ok_iff]
  refine compileAt_induction (motive := fun g p =>
    List.Forall₂ (fun c q => Condition.compile place now c = .ok q) g.conditions p.fragments) ?_ compiled
  intro k cs own groups nested conditions subgroups
  have single : List.Forall₂ (fun c q => Condition.compile place now c = .ok q) (cs.flatMap fun c => [c])
      (own.flatMap Predicate.fragments) := by
    refine List.rel_flatMap conditions fun c q compiled => ?_
    rw [Predicate.fragments_of_isFragment (Condition.isFragment_of_compile placed compiled)]
    exact .cons compiled .nil
  rw [List.flatMap_singleton'] at single
  rw [Predicate.fragments_combine, conditions_node, List.flatMap_append]
  exact List.rel_append single (List.rel_flatMap subgroups fun _ _ related => related)

theorem compile_conditions (compiled : g.compile now limit = .ok p) :
    g.conditions.mapM (Condition.compile .nest now) = .ok p.fragments :=
  compileAt_conditions Predicate.placesFragments_nest compiled

theorem holds_compile_eq (v : Predicate → Bool) (compiled : g.compile now limit = .ok p) :
    p.holds v = g.holds (Condition.holds v now) := by
  refine compileAt_induction (motive := fun g p => p.holds v = g.holds (Condition.holds v now)) ?_ compiled
  intro k cs own groups nested conditions subgroups
  have ownSame : cs.map (Condition.holds v now) = own.map (Predicate.holds v) :=
    map_eq_of_forall₂ conditions fun c q compiled => Condition.holds_of_compile v compiled
  have nestedSame : groups.map (holds (Condition.holds v now)) = nested.map (Predicate.holds v) :=
    map_eq_of_forall₂ subgroups fun g q same => same.symm
  rw [Predicate.holds_combine, holds_node, List.map_append, ownSame, nestedSame]

end Group

/-- A filter and its predicate hold together, whatever valuation says which fragments do,
    for groups of any width and nesting, empty ones and those of one part included. -/
theorem holds_compile (now : Now) (limit : Int) (g : Group) (p : Predicate) (v : Predicate → Bool)
    (compiled : g.compile now limit = .ok p) : p.holds v = g.holds (Condition.holds v now) :=
  Group.holds_compile_eq v compiled

/-- An empty `OR` within an `OR`, and an empty `AND` within it, keep their meaning beside a
    condition. -/
theorem holds_compile_of_empty_groups :
    let now : Now := ⟨⟨⟨2024, 5, 15, by decide⟩, .midnight, none⟩, none⟩
    let g : Group := .node "AND" [] [.node "OR" [.condition ⟨"OR", "equals", .int 1, .null⟩] [.node "OR" [] []],
      .node "OR" [] [.node "AND" [] []]]
    let one : Predicate := .object [("OR", .object [("equals", .int 1)])]
    let p : Predicate := .object [("AND", .list [.object [("OR", .list [one, .object [("OR", .list [])]])],
      .object []])]
    g.compile now 3 = .ok p ∧ ∀ v : Predicate → Bool, p.holds v = g.holds (Condition.holds v now) :=
  ⟨rfl, fun v => holds_compile _ 3 _ _ v rfl⟩

end Criteria
