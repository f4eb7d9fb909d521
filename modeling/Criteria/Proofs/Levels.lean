import Criteria.Proofs.Parsed
import Criteria.Proofs.Rules
import Mathlib.Algebra.GroupWithZero.Nat

/-!
The levels of groups, in a value and in a tree. The values below a value can be searched
for one that lies too deep with a stack and without recursion (`Json.anyBelow_iff`). The
depth of a tree is the length of its longest chain of groups (`Group.depth_le_iff`), and
a value has the levels of the tree that it is read as (`Group.levels_eq_depth`).
-/
namespace Criteria

namespace Json

/-! ### A search with a stack -/

/-- The values that stand one level below a value. -/
def subgroups (x : Json) : List Json :=
  match x.get? "groups" with
  | some (arr items) => items
  | _ => []

theorem levels_eq (x : Json) : x.levels = levelsInItems x.subgroups + 1 := by
  cases x with
  | obj entries =>
    rw [levels, levelsInEntries_eq, subgroups, getOrNull, get?]
    cases entries.lookup "groups" with
    | none => rfl
    | some y => cases y <;> rfl
  | _ => rfl

theorem lt_levelsInItems_iff {items : List Json} {n : Nat} : n < levelsInItems items ↔ ∃ x ∈ items, n < x.levels := by
  rw [← not_iff_not, Nat.not_lt, levelsInItems_le_iff]
  simp

theorem sum_sizeOf_le (items : List Json) : (items.map sizeOf).sum ≤ sizeOf items := by
  induction items with
  | nil => simp
  | cons x rest ih =>
    rw [List.map_cons, List.sum_cons, List.cons.sizeOf_spec]
    omega

theorem sizeOf_pos (x : Json) : 0 < sizeOf x := by
  cases x <;> simp only [null.sizeOf_spec, bool.sizeOf_spec, int.sizeOf_spec, float.sizeOf_spec, str.sizeOf_spec,
    arr.sizeOf_spec, obj.sizeOf_spec] <;> omega

theorem sum_sizeOf_subgroups_lt (x : Json) : (x.subgroups.map sizeOf).sum < sizeOf x := by
  unfold subgroups
  split
  · rename_i items found
    have bounded := sum_sizeOf_le items
    cases x with
    | obj entries =>
      have smaller := sizeOf_lt_of_lookup found
      rw [arr.sizeOf_spec] at smaller
      omega
    | _ => cases found
  · exact sizeOf_pos x

/-- Whether a value that waits on a stack with its level, or one that stands below it, lies
    below the limit. The values below the one on top are put in its place, the last of them on top. -/
def anyBelow (limit : Int) : List (Json × Int) → Bool
  | [] => false
  | (x, level) :: rest =>
    if limit < level then true
    else anyBelow limit ((x.subgroups.map (·, level + 1)).reverse ++ rest)
termination_by stack => (stack.map (sizeOf ·.1)).sum
decreasing_by
  have smaller := sum_sizeOf_subgroups_lt x
  have same : (x.subgroups.map (·, level + 1)).map (sizeOf ·.1) = x.subgroups.map sizeOf := by
    rw [List.map_map]
    rfl
  rw [List.map_append, List.sum_append, List.map_reverse, List.sum_reverse, same, List.map_cons, List.sum_cons]
  simp only
  omega

/-- The search finds something exactly if a value on the stack has more levels than the
    limit leaves below its own. -/
theorem anyBelow_iff {limit : Int} {stack : List (Json × Int)} :
    anyBelow limit stack = true ↔ ∃ e ∈ stack, limit + 1 < e.2 + e.1.levels := by
  fun_induction anyBelow limit stack with
  | case1 => simp
  | case2 x level rest deep =>
    have positive := x.levels_pos
    refine iff_of_true rfl ⟨(x, level), List.mem_cons_self, ?_⟩
    simp only
    omega
  | case3 x level rest within ih =>
    have below : (∃ y ∈ x.subgroups, limit + 1 < level + 1 + y.levels) ↔ limit + 1 < level + x.levels := by
      have counted := @lt_levelsInItems_iff x.subgroups (limit - level).toNat
      rw [levels_eq x]
      constructor
      · rintro ⟨y, inside, deep⟩
        have := counted.mpr ⟨y, inside, by omega⟩
        omega
      · intro deep
        obtain ⟨y, inside, more⟩ := counted.mp (by omega)
        exact ⟨y, inside, by omega⟩
    rw [ih, List.exists_mem_cons_iff, ← below]
    simp only [List.mem_append, List.mem_reverse, List.mem_map, or_and_right, exists_or]
    refine or_congr_left ⟨?_, ?_⟩
    · rintro ⟨_, ⟨y, inside, rfl⟩, deep⟩
      exact ⟨y, inside, deep⟩
    · rintro ⟨y, inside, deep⟩
      exact ⟨_, ⟨y, inside, rfl⟩, deep⟩

end Json

namespace Group

/-! ### The depth of a tree -/

/-- A tree has a chain of so many groups, its root first and each further one in the one before. -/
inductive Chain : Group → Nat → Prop
  | root (g : Group) : Chain g 1
  | nested {operator : String} {members : List Member} {groups : List Group} {g : Group} {n : Nat}
      (inside : g ∈ groups) (below : Chain g n) : Chain (.node operator members groups) (n + 1)

theorem depth_pos (g : Group) : 0 < g.depth := by
  cases g <;> simp [depth]

theorem Chain.le_depth {g : Group} {n : Nat} (chain : g.Chain n) : n ≤ g.depth := by
  induction chain with
  | root g => exact g.depth_pos
  | nested inside _ ih =>
    have deepest := depths_le_iff.mp (Nat.le_refl _) _ inside
    rw [depth]
    omega

/-- The depth of a tree is the length of its longest chain. -/
theorem depth_le_iff {g : Group} {limit : Int} : g.depth ≤ limit ↔ ∀ n, g.Chain n → n ≤ limit := by
  constructor
  · intro shallow n chain
    have := chain.le_depth
    omega
  · intro chains
    have positive := chains 1 (.root g)
    induction g using Group.induction generalizing limit with
    | node operator members groups ih =>
      have deepest : depths groups ≤ (limit - 1).toNat := by
        refine depths_le_iff.mpr fun g inside => ?_
        have below : ∀ n, g.Chain n → (n : Int) ≤ limit - 1 := by
          intro n chain
          have := chains (n + 1) (.nested inside chain)
          omega
        have := ih g inside below (below 1 (.root g))
        omega
      rw [depth]
      omega
    | foreign value => exact positive

/-! ### The depth of a value -/

/-- A tree is made of groups and conditions. -/
inductive Plain : Group → Prop
  | node (operator : String) (cs : List Condition) {groups : List Group} (nested : ∀ g ∈ groups, Plain g) :
      Plain (.node operator (cs.map .condition) groups)

theorem WellFormed.plain {g : Group} (wellFormed : g.WellFormed) : g.Plain := by
  induction wellFormed with
  | node k cs nested ih => exact .node k.name cs ih

theorem subgroups_of_listOfJson {x : Json} {groups : List Group} (read : listOfJson x = .ok groups) :
    (∃ items, x = .arr items ∧ items.mapM ofJson = .ok groups) ∨ (∀ items, x ≠ .arr items) ∧ groups = [] := by
  cases x with
  | arr items =>
    rw [listOfJson, ofItems_eq_mapM] at read
    exact .inl ⟨items, rfl, read⟩
  | _ =>
    right
    refine ⟨fun items same => Json.noConfusion same, ?_⟩
    rw [listOfJson.eq_def] at read
    simp only at read
    split at read
    · exact (Except.ok.inj read).symm
    · split at read
      · cases read
      · exact (Except.ok.inj read).symm
      · cases read

/-- A value that is read as a tree is an object, and its subgroups are read as those of the tree. -/
theorem exists_node_of_ofJson {x : Json} {g : Group} (read : ofJson x = .ok g) :
    ∃ (operator : String) (cs : List Condition) (groups : List Group), g = .node operator (cs.map .condition) groups ∧
      List.Forall₂ (fun y h => ofJson y = .ok h) x.subgroups groups := by
  cases x with
  | obj entries =>
    rw [ofJson] at read
    obtain ⟨cs, -, later⟩ := bind_eq_ok_iff.mp read
    obtain ⟨groups, listed, made⟩ := bind_eq_ok_iff.mp later
    obtain rfl := pure_eq_ok_iff.mp made
    refine ⟨_, cs, groups, rfl, ?_⟩
    rw [ofEntries_eq, Json.getOrNull] at listed
    rw [Json.subgroups, Json.get?]
    cases found : entries.lookup "groups" with
    | none =>
      rw [found] at listed
      cases listed
      exact .nil
    | some y =>
      rw [found] at listed
      rcases subgroups_of_listOfJson listed with ⟨items, same, each⟩ | ⟨other, rfl⟩
      · rw [Option.getD_some] at same
        rw [same]
        exact mapM_eq_ok_iff.mp each
      · rw [Option.getD_some] at other
        cases y with
        | arr items => exact absurd rfl (other items)
        | _ => exact .nil
  | _ => cases read

theorem plain_of_ofJson {x : Json} {g : Group} (read : ofJson x = .ok g) : g.Plain := by
  induction g using Group.induction generalizing x with
  | node operator members groups ih =>
    obtain ⟨_, cs, _, same, each⟩ := exists_node_of_ofJson read
    cases same
    refine .node operator cs fun g inside => ?_
    obtain ⟨y, sub⟩ := forall_mem_of_forall₂ each.flip (fun h y sub => Exists.intro y sub) g inside
    exact ih g inside sub
  | foreign value =>
    obtain ⟨_, _, _, impossible, -⟩ := exists_node_of_ofJson read
    cases impossible

theorem levelsInItems_eq_depths {items : List Json} {groups : List Group}
    (each : List.Forall₂ (fun y h => y.levels = h.depth) items groups) : Json.levelsInItems items = depths groups := by
  induction each with
  | nil => rfl
  | cons head _ ih => rw [Json.levelsInItems, depths, head, ih]

/-- A value that is read as a tree has the levels of the tree. -/
theorem levels_eq_depth {x : Json} {g : Group} (read : ofJson x = .ok g) : x.levels = g.depth := by
  induction g using Group.induction generalizing x with
  | node operator members groups ih =>
    obtain ⟨_, cs, _, same, each⟩ := exists_node_of_ofJson read
    cases same
    have counted : List.Forall₂ (fun y h => y.levels = h.depth) x.subgroups groups := by
      refine List.forall₂_iff_get.mpr ⟨each.length_eq, fun i inside inside' => ?_⟩
      exact ih _ (List.get_mem groups ⟨i, inside'⟩) (each.get inside inside')
    rw [Json.levels_eq, depth, levelsInItems_eq_depths counted]
  | foreign value =>
    obtain ⟨_, _, _, impossible, -⟩ := exists_node_of_ofJson read
    cases impossible

end Group

end Criteria
