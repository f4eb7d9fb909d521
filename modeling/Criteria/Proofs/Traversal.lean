import Criteria.Proofs.DepthChecks
import Criteria.Proofs.Meaning

/-!
How compilation goes through a tree. `visits` lists what it looks at, in order: the level
of a group, its connective, its conditions, its subgroups. Compilation fails with the fault
of the first visit that has one (`faultOf?_compileAt`), and a tree compiles if it fits the
limit, is well formed and its conditions compile (`exists_compileAt_iff`). Its predicate has
the predicates of the conditions in that order, none of its connectives is idle, and groups
that only wrap another one leave no trace in it (`compile_in_order`).
-/
namespace Criteria

open Calendar (Now)

/-- What compilation looks at in a tree. -/
inductive Visit where
  /-- The level of a group, or of what stands in the place of one. -/
  | level (n : Int)
  | connective (name : String)
  | member (x : Member)
  /-- A foreign value in the place of a group. -/
  | foreign (value : Json)
deriving DecidableEq, Repr

/-- The fault that compilation finds where it looks, if there is one. -/
def Visit.fault? (place : List String → Predicate → Predicate) (now : Now) (limit : Int) :
    Visit → Option CompileFault
  | level n => if limit < n then some (.tooDeep limit) else none
  | connective name => if (Connective.ofName? name).isNone then some (.unknownConnective name) else none
  | member x => faultOf? (x.compile place now)
  | foreign value => some (.foreign value)

namespace Group

mutual

/-- What compilation looks at in a tree whose root is at a level, in order. -/
def visits (level : Int) : Group → List Visit
  | node operator members groups =>
    .level level :: .connective operator :: members.map .member ++ visitsOfAll (level + 1) groups
  | foreign value => [.level level, .foreign value]

/-- What compilation looks at in several trees whose roots are at a level, one after the other. -/
def visitsOfAll (level : Int) : List Group → List Visit
  | [] => []
  | g :: rest => visits level g ++ visitsOfAll level rest

end

variable {place : List String → Predicate → Predicate} {now : Now} {limit level : Int}

/-! ### The first fault -/

theorem findSome?_visitsOfAll {α : Type} (f : Visit → Option α) (groups : List Group) :
    (visitsOfAll level groups).findSome? f = groups.findSome? fun g => (g.visits level).findSome? f := by
  induction groups with
  | nil => rfl
  | cons g rest ih =>
    rw [visitsOfAll, List.findSome?_append, ih, List.findSome?_cons]
    cases (g.visits level).findSome? f <;> rfl

theorem findSome?_congr {α β : Type} {f g : α → Option β} {xs : List α} (same : ∀ x ∈ xs, f x = g x) :
    xs.findSome? f = xs.findSome? g := by
  induction xs with
  | nil => rfl
  | cons x rest ih =>
    obtain ⟨head, tail⟩ := List.forall_mem_cons.mp same
    rw [List.findSome?_cons, List.findSome?_cons, head, ih tail]

/-- Compilation fails with the fault of the first visit that has one. -/
theorem faultOf?_compileAt (g : Group) :
    faultOf? (compileAt place now limit level g) = (g.visits level).findSome? (Visit.fault? place now limit) := by
  induction g using Group.induction generalizing level with
  | node operator members groups ih =>
    rw [compileAt_node, visits, List.cons_append, List.cons_append, List.findSome?_cons, List.findSome?_cons]
    by_cases deep : limit < level
    · simp [Visit.fault?, deep, faultOf?]
    · by_cases unknown : (Connective.ofName? operator).isNone
      · simp [Visit.fault?, deep, unknown, faultOf?]
      · have nested : faultOf? (groups.mapM (compileAt place now limit (level + 1))) =
            (visitsOfAll (level + 1) groups).findSome? (Visit.fault? place now limit) := by
          rw [faultOf?_mapM, findSome?_visitsOfAll]
          exact findSome?_congr fun g inside => ih g inside
        have joined : ∀ own, faultOf? (do
            let nested ← groups.mapM (compileAt place now limit (level + 1))
            return Predicate.combine operator (own ++ nested)) =
              (visitsOfAll (level + 1) groups).findSome? (Visit.fault? place now limit) := by
          intro own
          have made : ∀ nested : List Predicate,
              faultOf? (pure (Predicate.combine operator (own ++ nested)) : Except CompileFault Predicate) = none :=
            fun _ => rfl
          rw [faultOf?_bind made, nested, Option.or_none]
        rw [if_neg deep, if_neg unknown, faultOf?_bind joined, faultOf?_mapM, List.findSome?_append, List.findSome?_map]
        simp only [Visit.fault?, if_neg deep, if_neg unknown]
        rfl
  | foreign value =>
    rw [compileAt, visits, List.findSome?_cons]
    by_cases deep : limit < level
    · simp [Visit.fault?, deep, faultOf?]
    · simp [Visit.fault?, deep, faultOf?]

theorem compileAt_eq_error_iff {g : Group} {e : CompileFault} :
    compileAt place now limit level g = .error e ↔ ∃ before v after, g.visits level = before ++ v :: after ∧
      v.fault? place now limit = some e ∧ ∀ u ∈ before, u.fault? place now limit = none := by
  rw [← faultOf?_eq_some_iff, faultOf?_compileAt, List.findSome?_eq_some_iff]

/-! ### Trees that compile -/

theorem wellFormed_of_compileAt {g : Group} {p : Predicate} (compiled : compileAt place now limit level g = .ok p) :
    g.WellFormed ∧ ∀ c ∈ g.conditions, ∃ q, c.compile place now = .ok q := by
  refine compileAt_induction (motive := fun g _ =>
    g.WellFormed ∧ ∀ c ∈ g.conditions, ∃ q, c.compile place now = .ok q) ?_ compiled
  intro k cs own groups nested conditions subgroups
  have each := forall_mem_of_forall₂ subgroups fun g p both => both
  refine ⟨.node k cs fun g inside => (each g inside).1, fun c inside => ?_⟩
  rcases mem_conditions_node_iff.mp inside with member | ⟨g, subgroup, deeper⟩
  · have listed : c ∈ cs := by simpa using member
    exact forall_mem_of_forall₂ conditions (fun c p made => Exists.intro p made) c listed
  · exact (each g subgroup).2 c deeper

theorem exists_compileAt_iff {g : Group} :
    (∃ p, compileAt place now limit level g = .ok p) ↔
      level + g.depth ≤ limit + 1 ∧ g.WellFormed ∧ ∀ c ∈ g.conditions, ∃ q, c.compile place now = .ok q := by
  constructor
  · rintro ⟨p, compiled⟩
    obtain ⟨wellFormed, compiles⟩ := wellFormed_of_compileAt compiled
    rcases compileAt_of_wellFormed wellFormed compiles with ⟨within, -⟩ | ⟨-, failed⟩
    · exact ⟨within, wellFormed, compiles⟩
    · cases compiled.symm.trans failed
  · rintro ⟨within, wellFormed, compiles⟩
    rcases compileAt_of_wellFormed wellFormed compiles with ⟨-, compiled⟩ | ⟨beyond, -⟩
    · exact compiled
    · omega

theorem tidy_of_compileAt {g : Group} {p : Predicate} (placed : Predicate.PlacesFragments place)
    (compiled : compileAt place now limit level g = .ok p) : p.Tidy := by
  refine compileAt_induction (motive := fun _ p => p.Tidy) ?_ compiled
  intro k cs own groups nested conditions subgroups
  refine Predicate.tidy_combine k fun p inside => ?_
  rcases List.mem_append.mp inside with member | subgroup
  · have each : ∀ q ∈ own, q.isFragment = true :=
      forall_mem_of_forall₂ conditions.flip fun q c made => Condition.isFragment_of_compile placed made
    exact .fragment (each p member)
  · exact forall_mem_of_forall₂ subgroups.flip (fun p g tidy => tidy) p subgroup

/-! ### Wrapping -/

/-- A tree in groups that hold nothing else, one for each connective, the first outermost. -/
def wrappedIn (ks : List Connective) (g : Group) : Group := ks.foldr (fun k inner => node k.name [] [inner]) g

theorem depth_wrappedIn (ks : List Connective) (g : Group) : (g.wrappedIn ks).depth = g.depth + ks.length := by
  induction ks with
  | nil => rfl
  | cons k rest ih =>
    rw [wrappedIn, List.foldr_cons, depth, depths, depths, List.length_cons]
    rw [wrappedIn] at ih
    omega

/-- A tree that fits below two levels comes out the same at both. -/
theorem compileAt_level {g : Group} {level' : Int} (fits : level + g.depth ≤ limit + 1)
    (fits' : level' + g.depth ≤ limit + 1) :
    compileAt place now limit level g = compileAt place now limit level' g := by
  induction g using Group.induction generalizing level level' with
  | node operator members groups ih =>
    have nested : groups.mapM (compileAt place now limit (level + 1)) =
        groups.mapM (compileAt place now limit (level' + 1)) := by
      refine mapM_congr fun g inside => ?_
      have shallow := depths_le_iff.mp (Nat.le_refl (depths groups)) g inside
      rw [depth] at fits fits'
      exact ih g inside (by omega) (by omega)
    have positive := (Group.node operator members groups).depth_pos
    have within : ¬ limit < level := by omega
    have within' : ¬ limit < level' := by omega
    rw [compileAt_node, compileAt_node, if_neg within, if_neg within', nested]
  | foreign value =>
    rw [depth] at fits fits'
    rw [compileAt, compileAt, if_neg (by omega), if_neg (by omega)]

theorem compileAt_wrap (k : Connective) (g : Group) (within : level ≤ limit) :
    compileAt place now limit level (.node k.name [] [g]) = compileAt place now limit (level + 1) g := by
  rw [compileAt_node, if_neg (by omega), Connective.ofName?_name, if_neg (by simp), List.mapM_nil, List.mapM_cons]
  cases compileAt place now limit (level + 1) g <;> rfl

theorem compileAt_wrappedIn (ks : List Connective) {g : Group} (fits : level + (g.wrappedIn ks).depth ≤ limit + 1) :
    compileAt place now limit level (g.wrappedIn ks) = compileAt place now limit level g := by
  induction ks generalizing level with
  | nil => rfl
  | cons k rest ih =>
    rw [depth_wrappedIn, List.length_cons] at fits
    have inner : level + 1 + (g.wrappedIn rest).depth ≤ limit + 1 := by
      rw [depth_wrappedIn]
      omega
    have unwrapped : compileAt place now limit level (g.wrappedIn (k :: rest)) =
        compileAt place now limit (level + 1) (g.wrappedIn rest) := compileAt_wrap k _ (by omega)
    rw [unwrapped, ih inner]
    exact compileAt_level (by omega) (by omega)

end Group

/-- Compilation loses no condition, takes none twice and keeps their order, for every tree and limit
    and at every present moment, wherever the leaves are placed: there is a predicate exactly if no
    group lies below the limit, all of them have a connective, nothing foreign stands among them and
    every condition has a predicate; otherwise the first fault counts, in the order of the visits. If
    leaves are placed as fragments, as they are under the paths of fields, then the fragments of the
    predicate are the predicates of the conditions in that order, its connectives join at least two
    parts or are the `OR` of none, and the tree comes out the same within further groups that the
    limit leaves room for. -/
theorem compile_in_order :
    Predicate.PlacesFragments .nest ∧
    ∀ (place : List String → Predicate → Predicate) (now : Now) (limit : Int) (g : Group),
      ((∃ p, g.compileAt place now limit 1 = .ok p) ↔
        g.depth ≤ limit ∧ g.WellFormed ∧ ∀ c ∈ g.conditions, ∃ q, c.compile place now = .ok q) ∧
      (∀ e, g.compileAt place now limit 1 = .error e ↔ ∃ before v after, g.visits 1 = before ++ v :: after ∧
        v.fault? place now limit = some e ∧ ∀ u ∈ before, u.fault? place now limit = none) ∧
      ∀ p, Predicate.PlacesFragments place → g.compileAt place now limit 1 = .ok p →
        g.conditions.mapM (Condition.compile place now) = .ok p.fragments ∧ p.Tidy ∧
        ∀ ks, (g.wrappedIn ks).depth ≤ limit → (g.wrappedIn ks).compileAt place now limit 1 = .ok p := by
  refine ⟨Predicate.placesFragments_nest, fun place now limit g => ⟨?_, fun e => ?_, fun p placed compiled => ?_⟩⟩
  · rw [Group.exists_compileAt_iff]
    have fits : 1 + (g.depth : Int) ≤ limit + 1 ↔ (g.depth : Int) ≤ limit := by omega
    rw [fits]
  · exact Group.compileAt_eq_error_iff
  · refine ⟨Group.compileAt_conditions placed compiled, Group.tidy_of_compileAt placed compiled, fun ks fits => ?_⟩
    rw [Group.compileAt_wrappedIn ks (by omega), compiled]

/-- Leaves under the joined segments of their paths. -/
def joinedPath (path : List String) (leaf : Predicate) : Predicate := .object [("__".intercalate path, leaf)]

/-- Won deals of more than a thousand, the second condition two levels below the first, and a group of none. -/
def wonAndLarge : Group :=
  .node "AND" [.condition ⟨"stage.name", "equals", .str "Won", .null⟩]
    [.node "OR" [] [.node "AND" [.condition ⟨"value", "greater_than", .int 1000, .null⟩] []], .node "OR" [] []]

/-- Leaves under joined paths are fragments too. The groups of one part leave no connective behind, the
    group of none leaves the `OR` of none, two more groups around the tree change nothing, and a limit of
    two is first exceeded by the group of the second condition. -/
theorem compile_in_order_joinedPath :
    let now : Now := ⟨⟨⟨2024, 5, 15, by decide⟩, .midnight, none⟩, none⟩
    let fragments : List Predicate :=
      [.object [("stage__name", .object [("equals", .text "Won")])], .object [("value", .object [("gt", .int 1000)])]]
    let p : Predicate := .object [("AND", .list (fragments ++ [.object [("OR", .list [])]]))]
    Predicate.PlacesFragments joinedPath ∧ wonAndLarge.compileAt joinedPath now 5 1 = .ok p ∧
      p.fragments = fragments ∧ p.Tidy ∧ (wonAndLarge.wrappedIn [.any, .all]).compileAt joinedPath now 5 1 = .ok p ∧
      wonAndLarge.compileAt joinedPath now 2 1 = .error (.tooDeep 2) := by
  intro now fragments p
  have placed : Predicate.PlacesFragments joinedPath := fun _ _ _ => rfl
  have compiled : wonAndLarge.compileAt joinedPath now 5 1 = .ok p := rfl
  obtain ⟨-, -, faithful⟩ := compile_in_order.2 joinedPath now 5 wonAndLarge
  obtain ⟨-, tidy, wrapped⟩ := faithful p placed compiled
  obtain ⟨-, first, -⟩ := compile_in_order.2 joinedPath now 2 wonAndLarge
  refine ⟨placed, compiled, rfl, tidy, wrapped [.any, .all] (by decide), (first (.tooDeep 2)).mpr ?_⟩
  refine ⟨wonAndLarge.visits 1 |>.take 5, .level 3, wonAndLarge.visits 1 |>.drop 6, rfl, rfl, ?_⟩
  decide

end Criteria
