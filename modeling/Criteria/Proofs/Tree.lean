import Criteria.Filter.Tree

/-!
Filter trees of any width and depth. `Group.induction` proves a property of every
tree from the property of its subgroups; the conditions of a tree are those of its
root, followed by those of its subgroups in turn (`conditions_node`,
`mem_conditions_node_iff`).
-/
namespace Criteria.Group

/-- A property holds of every tree if it passes from the subgroups of a group to the
    group, and holds of what stands in the place of one. -/
@[elab_as_elim]
theorem induction {motive : Group → Prop}
    (node : ∀ operator members groups, (∀ g ∈ groups, motive g) → motive (.node operator members groups))
    (foreign : ∀ value, motive (.foreign value)) (g : Group) : motive g := by
  refine @Group.rec motive (fun groups => ∀ g ∈ groups, motive g) ?_ ?_ ?_ ?_ g
  · exact node
  · exact foreign
  · intro g inside
    exact absurd inside List.not_mem_nil
  · intro first rest head tail g inside
    rcases List.mem_cons.mp inside with rfl | later
    · exact head
    · exact tail g later

theorem conditionsOfAll_eq_flatMap (groups : List Group) : conditionsOfAll groups = groups.flatMap conditions := by
  induction groups with
  | nil => rfl
  | cons g rest ih => rw [conditionsOfAll, ih, List.flatMap_cons]

theorem conditions_node (operator : String) (own : List Condition) (groups : List Group) :
    (node operator (own.map .condition) groups).conditions = own ++ groups.flatMap conditions := by
  rw [conditions, conditionsOfAll_eq_flatMap, List.filterMap_map]
  congr 1
  exact List.filterMap_some

theorem mem_conditions_node_iff {operator : String} {members : List Member} {groups : List Group} {c : Condition} :
    c ∈ (node operator members groups).conditions ↔
      .condition c ∈ members ∨ ∃ g ∈ groups, c ∈ g.conditions := by
  rw [conditions, conditionsOfAll_eq_flatMap, List.mem_append, List.mem_flatMap, List.mem_filterMap]
  refine or_congr ⟨?_, ?_⟩ Iff.rfl
  · rintro ⟨x, inside, own⟩
    cases x with
    | condition d =>
      cases own
      exact inside
    | foreign value => cases own
  · intro inside
    exact ⟨.condition c, inside, rfl⟩

end Criteria.Group
