import Criteria.Predicate.Compilation
import Criteria.Proofs.Outcome
import Criteria.Proofs.Tree

/-!
What becomes of a tree that compiles. Its root has a connective and lies within the
limit, its members are conditions, and its predicate joins theirs and those of its
subgroups (`compileAt_node_eq_ok_iff`). `compileAt_induction` carries a relation
between trees and predicates from the parts of a group to the group.
-/
namespace Criteria.Group

open Calendar (Now)

variable {place : List String → Predicate → Predicate} {now : Now} {limit level : Int}

theorem compileAll_eq_mapM (groups : List Group) :
    compileAll place now limit level groups = groups.mapM (compileAt place now limit level) := by
  induction groups with
  | nil => rfl
  | cons g rest ih => rw [compileAll, ih, List.mapM_cons]

theorem compileAt_node (operator : String) (members : List Member) (groups : List Group) :
    compileAt place now limit level (.node operator members groups) =
      if limit < level then .error (.tooDeep limit)
      else if (Connective.ofName? operator).isNone then .error (.unknownConnective operator)
      else do
        let own ← members.mapM (Member.compile place now)
        let nested ← groups.mapM (compileAt place now limit (level + 1))
        return Predicate.combine operator (own ++ nested) := by
  rw [compileAt, compileAll_eq_mapM]
  split
  · rfl
  · split
    · rfl
    · rfl

theorem compileAt_node_eq_ok_iff {operator : String} {members : List Member} {groups : List Group} {p : Predicate} :
    compileAt place now limit level (.node operator members groups) = .ok p ↔
      level ≤ limit ∧ ∃ (k : Connective) (own nested : List Predicate), operator = k.name ∧
        members.mapM (Member.compile place now) = .ok own ∧
        groups.mapM (compileAt place now limit (level + 1)) = .ok nested ∧
        p = Predicate.combine k.name (own ++ nested) := by
  rw [compileAt_node]
  by_cases deep : limit < level
  · rw [if_pos deep]
    refine ⟨nofun, ?_⟩
    rintro ⟨within, -⟩
    omega
  · rw [if_neg deep]
    cases known : Connective.ofName? operator with
    | none =>
      simp only [Option.isNone_none, if_true, reduceCtorEq, false_iff, not_and]
      rintro - ⟨k, own, nested, rfl, -⟩
      rw [Connective.ofName?_name] at known
      cases known
    | some k =>
      obtain rfl := Connective.ofName?_eq_some_iff.mp known
      simp only [Option.isNone_some, Bool.false_eq_true, if_false, bind_eq_ok_iff, pure_eq_ok_iff]
      constructor
      · rintro ⟨own, first, nested, second, rfl⟩
        exact ⟨by omega, k, own, nested, rfl, first, second, rfl⟩
      · rintro ⟨-, other, own, nested, same, first, second, rfl⟩
        exact ⟨own, first, nested, second, by rw [same]⟩

/-- Members that compile are conditions. -/
theorem mapM_member_eq_ok_iff {members : List Member} {own : List Predicate} :
    members.mapM (Member.compile place now) = .ok own ↔
      ∃ cs : List Condition, members = cs.map .condition ∧ cs.mapM (Condition.compile place now) = .ok own := by
  simp only [mapM_eq_ok_iff]
  constructor
  · intro related
    induction related with
    | nil => exact ⟨[], rfl, .nil⟩
    | @cons x p _ _ head _ ih =>
      obtain ⟨cs, rfl, compiled⟩ := ih
      cases x with
      | condition c => exact ⟨c :: cs, rfl, .cons head compiled⟩
      | foreign value => cases head
  · rintro ⟨cs, rfl, related⟩
    exact List.forall₂_map_left_iff.mpr related

/-- A relation between trees and predicates holds of every tree and its predicate if
    it passes from the subgroups of a group to the group. -/
theorem compileAt_induction {motive : Group → Predicate → Prop}
    (node : ∀ (k : Connective) (cs : List Condition) (own : List Predicate) (groups : List Group)
      (nested : List Predicate), List.Forall₂ (fun c p => c.compile place now = .ok p) cs own →
        List.Forall₂ motive groups nested →
        motive (.node k.name (cs.map .condition) groups) (Predicate.combine k.name (own ++ nested)))
    {g : Group} {p : Predicate} (compiled : compileAt place now limit level g = .ok p) : motive g p := by
  -- The level grows on the way down, so the induction is over the tree at every level.
  induction g using Group.induction generalizing level p with
  | node operator members groups ih =>
    obtain ⟨-, k, own, nested, rfl, membersCompile, groupsCompile, rfl⟩ := compileAt_node_eq_ok_iff.mp compiled
    obtain ⟨cs, rfl, conditionsCompile⟩ := mapM_member_eq_ok_iff.mp membersCompile
    have related := mapM_eq_ok_iff.mp groupsCompile
    refine node k cs own groups nested (mapM_eq_ok_iff.mp conditionsCompile) ?_
    exact List.forall₂_iff_get.mpr ⟨related.length_eq, fun i inside inside' =>
      ih _ (List.get_mem groups ⟨i, inside⟩) (related.get inside inside')⟩
  | foreign value =>
    rw [compileAt] at compiled
    split at compiled
    · cases compiled
    · cases compiled

end Criteria.Group
