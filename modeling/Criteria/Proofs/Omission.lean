import Criteria.Proofs.Sentence
import Criteria.Proofs.Traversal

/-!
What a description leaves out. The subgroups that are not told are those without a condition at any
depth (`without_isOmitted`), and the words are the same without them (`words_without`). Yet such a
subgroup holds or fails on its own: it may be deleted if it has the value that the connective around
it gives to nothing, an `AND` below `AND` for instance (`OmitsNeutral.holds_without`). If the
conditions are distinct and one of them has the other value, then some valuation tells the tree from
what the words say (`exists_holds_without_ne`).
-/
namespace Criteria

open Calendar (Now)

/-! ### Joined truth values -/

namespace Connective

variable {k : Connective} {truths : List Bool}

/-- What a connective makes of nothing. -/
def neutral (k : Connective) : Bool := k.join []

theorem join_eq_neutral_iff : k.join truths = k.neutral ↔ ∀ b ∈ truths, b = k.neutral := by
  cases k <;> simp [neutral, join]

theorem join_eq_join_iff {truths' : List Bool} :
    k.join truths = k.join truths' ↔ ((∀ b ∈ truths, b = k.neutral) ↔ ∀ b ∈ truths', b = k.neutral) := by
  rw [← join_eq_neutral_iff, ← join_eq_neutral_iff]
  cases k.join truths <;> cases k.join truths' <;> cases k.neutral <;> decide

theorem join_eq_iff {b : Bool} : k.join truths = b ↔ ((∀ x ∈ truths, x = k.neutral) ↔ b = k.neutral) := by
  have one : k.join [b] = b := by cases k <;> simp [join]
  rw [← List.forall_mem_singleton (p := (· = k.neutral)), ← join_eq_join_iff, one]

theorem join_eq_of_forall {b : Bool} (some : truths ≠ []) (same : ∀ x ∈ truths, x = b) : k.join truths = b := by
  obtain ⟨x, inside⟩ := List.exists_mem_of_ne_nil _ some
  rw [join_eq_iff, ← same x inside]
  refine ⟨fun all => all x inside, fun neutral y listed => ?_⟩
  rw [same y listed, ← same x inside, neutral]

theorem join_append_cons {before after : List Bool} (b : Bool) (neutralBefore : ∀ x ∈ before, x = k.neutral)
    (neutralAfter : ∀ x ∈ after, x = k.neutral) : k.join (before ++ b :: after) = b := by
  rw [join_eq_iff, List.forall_mem_append, List.forall_mem_cons]
  exact ⟨fun all => all.2.1, fun neutral => ⟨neutralBefore, neutral, neutralAfter⟩⟩

end Connective

namespace Group

/-! ### Trees without some of their subgroups -/

mutual

/-- A tree without the subgroups that are picked, at any depth. -/
def without (pick : Group → Bool) : Group → Group
  | node operator members groups => node operator members (withoutAll pick groups)
  | foreign value => foreign value

/-- The subgroups that are not picked, each without those below it that are. -/
def withoutAll (pick : Group → Bool) : List Group → List Group
  | [] => []
  | g :: rest => if pick g then withoutAll pick rest else without pick g :: withoutAll pick rest

end

/-- Whether a tree has no condition at any depth. -/
def isBare (g : Group) : Bool := g.conditions.isEmpty

/-- Whether a subgroup is left out of the description of its group. -/
def isOmitted (labels : Labels) (g : Group) : Bool := g.sentence? labels true == some ""

variable {labels : Labels} {pick : Group → Bool} {g : Group} {groups : List Group}

theorem isBare_iff : g.isBare = true ↔ g.conditions = [] := List.isEmpty_iff

theorem isOmitted_eq_isBare (plain : g.Plain) : g.isOmitted labels = g.isBare := by
  rw [Bool.eq_iff_iff, isBare_iff, ← words_eq_empty_iff labels plain true, isOmitted,
    sentence?_eq_some plain]
  simp

theorem withoutAll_eq_map (pick : Group → Bool) (groups : List Group) :
    withoutAll pick groups = (groups.filter (!pick ·)).map (without pick) := by
  induction groups with
  | nil => rfl
  | cons g rest ih =>
    rw [withoutAll, ih, List.filter_cons]
    cases pick g <;> rfl

theorem withoutAll_append (before after : List Group) :
    withoutAll pick (before ++ after) = withoutAll pick before ++ withoutAll pick after := by
  rw [withoutAll_eq_map, withoutAll_eq_map, withoutAll_eq_map, List.filter_append, List.map_append]

theorem mem_withoutAll_isBare_iff {h : Group} :
    h ∈ withoutAll isBare groups ↔ ∃ g ∈ groups, g.conditions ≠ [] ∧ g.without isBare = h := by
  simp only [withoutAll_eq_map, List.mem_map, List.mem_filter, Bool.not_eq_true', ← Bool.not_eq_true, isBare_iff,
    and_assoc]

theorem without_isOmitted (plain : g.Plain) : g.without (isOmitted labels) = g.without isBare := by
  induction plain with
  | @node operator cs groups nested ih =>
    rw [without, without, withoutAll_eq_map, withoutAll_eq_map]
    have same : groups.filter (!isOmitted labels ·) = groups.filter (!isBare ·) :=
      List.filter_congr fun g inside => congrArg not (isOmitted_eq_isBare (nested g inside))
    rw [same]
    exact congrArg (node operator _) (List.map_congr_left fun g inside => ih g (List.mem_filter.mp inside).1)

theorem conditions_without (g : Group) : (g.without isBare).conditions = g.conditions := by
  induction g using Group.induction with
  | node operator members groups ih =>
    have nested : conditionsOfAll (withoutAll isBare groups) = conditionsOfAll groups := by
      induction groups with
      | nil => rfl
      | cons g rest tail =>
        obtain ⟨head, others⟩ := List.forall_mem_cons.mp ih
        rw [withoutAll, conditionsOfAll]
        split
        · rename_i bare
          rw [isBare_iff.mp bare, tail others, List.nil_append]
        · rw [conditionsOfAll, head, tail others]
    rw [without, conditions, conditions, nested]
  | foreign value => rfl

theorem depth_without_le (pick : Group → Bool) (g : Group) : (g.without pick).depth ≤ g.depth := by
  induction g using Group.induction with
  | node operator members groups ih =>
    rw [without, depth, depth]
    refine Nat.succ_le_succ (depths_le_iff.mpr fun h inside => ?_)
    rw [withoutAll_eq_map] at inside
    obtain ⟨g, kept, rfl⟩ := List.mem_map.mp inside
    have listed := (List.mem_filter.mp kept).1
    exact (ih g listed).trans (depths_le_iff.mp (Nat.le_refl _) g listed)
  | foreign value => exact Nat.le_refl _

theorem WellFormed.without (wellFormed : g.WellFormed) : (g.without pick).WellFormed := by
  induction wellFormed with
  | @node k cs groups nested ih =>
    rw [Group.without, withoutAll_eq_map]
    refine .node k cs fun h inside => ?_
    obtain ⟨g, kept, rfl⟩ := List.mem_map.mp inside
    exact ih g (List.mem_filter.mp kept).1

theorem words_without (plain : g.Plain) (nested : Bool) :
    (g.without isBare).words labels nested = g.words labels nested := by
  induction plain generalizing nested with
  | @node operator cs groups subgroups ih =>
    have kept : wordsOfAll labels (withoutAll isBare groups) = wordsOfAll labels groups := by
      induction groups with
      | nil => rfl
      | cons g rest tail =>
        obtain ⟨first, later⟩ := List.forall_mem_cons.mp subgroups
        obtain ⟨head, others⟩ := List.forall_mem_cons.mp ih
        rw [withoutAll]
        split
        · rename_i bare
          have silent : g.words labels true = "" := (words_eq_empty_iff labels first true).mpr (isBare_iff.mp bare)
          rw [tail later others, wordsOfAll, silent]
          rfl
        · rw [wordsOfAll, wordsOfAll, head true, tail later others]
    rw [without, words, words, kept]

theorem sublist_conditions_node {operator : String} {cs : List Condition} (inside : g ∈ groups) :
    g.conditions.Sublist (node operator (cs.map .condition) groups).conditions := by
  rw [conditions_node]
  exact (List.sublist_flatten_of_mem (List.mem_map_of_mem inside)).trans (List.sublist_append_right _ _)

/-! ### Truth values -/

theorem holds_congr {test test' : Condition → Bool} (same : ∀ c ∈ g.conditions, test c = test' c) :
    g.holds test = g.holds test' := by
  induction g using Group.induction with
  | node operator members groups ih =>
    have own : members.map (Member.holds test) = members.map (Member.holds test') := by
      refine List.map_congr_left fun x inside => ?_
      cases x with
      | condition c => exact same c (mem_conditions_node_iff.mpr (.inl inside))
      | foreign value => rfl
    have nested : groups.map (holds test) = groups.map (holds test') := by
      refine List.map_congr_left fun g inside => ih g inside fun c deeper => ?_
      exact same c (mem_conditions_node_iff.mpr (.inr ⟨g, inside, deeper⟩))
    rw [holds, holds, truths_eq_map, truths_eq_map, own, nested]
  | foreign value => rfl

theorem holds_of_bare (bare : g.conditions = []) (test test' : Condition → Bool) : g.holds test = g.holds test' :=
  holds_congr fun _ inside => absurd inside (bare ▸ List.not_mem_nil)

theorem holds_node_eq_neutral_iff {k : Connective} {cs : List Condition} {test : Condition → Bool} :
    (node k.name (cs.map .condition) groups).holds test = k.neutral ↔
      (∀ c ∈ cs, test c = k.neutral) ∧ ∀ g ∈ groups, g.holds test = k.neutral := by
  rw [holds_node, Connective.join_eq_neutral_iff, List.forall_mem_append, List.forall_mem_map, List.forall_mem_map]

/-- What the description of a tree leaves out has no say in it: each subgroup without conditions has
    the value that the connective around it gives to nothing. -/
inductive OmitsNeutral : Group → Prop
  | node (k : Connective) (cs : List Condition) {groups : List Group}
      (bare : ∀ g ∈ groups, g.conditions = [] → g.holds (fun _ => true) = k.neutral)
      (nested : ∀ g ∈ groups, g.conditions ≠ [] → OmitsNeutral g) :
      OmitsNeutral (.node k.name (cs.map .condition) groups)

theorem OmitsNeutral.holds_without (neutral : g.OmitsNeutral) (test : Condition → Bool) :
    (g.without isBare).holds test = g.holds test := by
  induction neutral with
  | @node k cs groups bare nested ih =>
    rw [without, holds_node, holds_node, Connective.join_eq_join_iff]
    simp only [List.forall_mem_append, List.forall_mem_map, mem_withoutAll_isBare_iff]
    refine and_congr_right fun _ => ⟨fun kept g inside => ?_, ?_⟩
    · by_cases none : g.conditions = []
      · rw [holds_of_bare none test fun _ => true]
        exact bare g inside none
      · rw [← ih g inside none]
        exact kept _ ⟨g, inside, none, rfl⟩
    · rintro all _ ⟨g, inside, some, rfl⟩
      rw [ih g inside some]
      exact all g inside

theorem holds_without_const (wellFormed : g.WellFormed) (some : g.conditions ≠ []) (b : Bool) :
    (g.without isBare).holds (fun _ => b) = b := by
  induction wellFormed with
  | @node k cs groups nested ih =>
    rw [without, holds_node]
    refine Connective.join_eq_of_forall ?_ ?_
    · intro nothing
      rw [List.append_eq_nil_iff, List.map_eq_nil_iff, List.map_eq_nil_iff] at nothing
      refine some ?_
      rw [← conditions_without, without, conditions_node, nothing.1, nothing.2]
      rfl
    · rw [List.forall_mem_append, List.forall_mem_map, List.forall_mem_map]
      refine ⟨fun _ _ => rfl, fun h inside => ?_⟩
      obtain ⟨g, listed, given, rfl⟩ := mem_withoutAll_isBare_iff.mp inside
      exact ih g listed given

/-- A test with its values on the given conditions and one value on all others. -/
def focus (cs : List Condition) (test : Condition → Bool) (b : Bool) (c : Condition) : Bool :=
  if c ∈ cs then test c else b

/-- A subgroup of a group of distinct conditions decides alone if all conditions elsewhere are neutral,
    provided that all subgroups can be. -/
theorem holds_focus {k : Connective} {cs : List Condition} {before after : List Group}
    (distinct : (node k.name (cs.map .condition) (before ++ g :: after)).conditions.Nodup)
    (neutral : ∀ h ∈ before ++ g :: after, h.holds (fun _ => k.neutral) = k.neutral) (test : Condition → Bool) :
    (node k.name (cs.map .condition) (before ++ g :: after)).holds (focus g.conditions test k.neutral) =
      g.holds test := by
  rw [conditions_node, List.flatMap_append, List.flatMap_cons] at distinct
  obtain ⟨-, nested, ownApart⟩ := List.nodup_append.mp distinct
  obtain ⟨-, later, beforeApart⟩ := List.nodup_append.mp nested
  obtain ⟨-, -, afterApart⟩ := List.nodup_append.mp later
  have own : ∀ c ∈ cs, focus g.conditions test k.neutral c = k.neutral := by
    intro c listed
    refine if_neg fun inside => ownApart c listed c ?_ rfl
    exact List.mem_append_right _ (List.mem_append_left _ inside)
  have apart : ∀ h ∈ before ++ g :: after, (∀ c ∈ h.conditions, c ∉ g.conditions) →
      h.holds (focus g.conditions test k.neutral) = k.neutral :=
    fun h listed elsewhere => (holds_congr fun c deeper => if_neg (elsewhere c deeper)).trans (neutral h listed)
  have first : ∀ h ∈ before, h.holds (focus g.conditions test k.neutral) = k.neutral := by
    refine fun h listed => apart h (List.mem_append_left _ listed) fun c deeper inside => ?_
    exact beforeApart c (List.mem_flatMap.mpr ⟨h, listed, deeper⟩) c (List.mem_append_left _ inside) rfl
  have last : ∀ h ∈ after, h.holds (focus g.conditions test k.neutral) = k.neutral := by
    refine fun h listed => apart h (by simp [listed]) fun c deeper inside => ?_
    exact afterApart c inside c (List.mem_flatMap.mpr ⟨h, listed, deeper⟩) rfl
  have within : g.holds (focus g.conditions test k.neutral) = g.holds test :=
    holds_congr fun c inside => if_pos inside
  rw [holds_node, List.map_append, List.map_cons, ← List.append_assoc, within]
  refine Connective.join_append_cons _ ?_ (List.forall_mem_map.mpr last)
  exact List.forall_mem_append.mpr ⟨List.forall_mem_map.mpr own, List.forall_mem_map.mpr first⟩

theorem exists_mem_not_omitsNeutral {k : Connective} {cs : List Condition}
    (neutral : ∀ g ∈ groups, g.holds (fun _ => k.neutral) = k.neutral)
    (counts : ¬ (node k.name (cs.map .condition) groups).OmitsNeutral) :
    ∃ g ∈ groups, g.conditions ≠ [] ∧ ¬ g.OmitsNeutral := by
  by_contra all
  simp only [not_exists, not_and, not_not] at all
  refine counts (.node k cs (fun g inside bare => ?_) all)
  rw [holds_of_bare bare _ fun _ => k.neutral]
  exact neutral g inside

/-- If the conditions of a tree are distinct and what the description leaves out has a say, then some
    test tells the tree from the one without it. -/
theorem exists_holds_without_ne (wellFormed : g.WellFormed) (distinct : g.conditions.Nodup)
    (counts : ¬ g.OmitsNeutral) : ∃ test, (g.without isBare).holds test ≠ g.holds test := by
  induction wellFormed with
  | @node k cs groups nested ih =>
    have constant : ∀ h ∈ withoutAll isBare groups, h.holds (fun _ => k.neutral) = k.neutral := by
      intro h inside
      obtain ⟨g, listed, some, rfl⟩ := mem_withoutAll_isBare_iff.mp inside
      exact holds_without_const (nested g listed) some k.neutral
    -- Neutral conditions tell the trees apart, unless the subgroups are neutral then.
    by_cases same : (node k.name (cs.map .condition) groups).holds (fun _ => k.neutral) = k.neutral
    · have neutral := (holds_node_eq_neutral_iff.mp same).2
      obtain ⟨g, inside, some, innerCounts⟩ := exists_mem_not_omitsNeutral neutral counts
      obtain ⟨before, after, rfl⟩ := List.append_of_mem inside
      have kept : withoutAll isBare (before ++ g :: after) =
          withoutAll isBare before ++ g.without isBare :: withoutAll isBare after := by
        rw [withoutAll_append, withoutAll, if_neg (mt isBare_iff.mp some)]
      have innerDistinct : g.conditions.Nodup := distinct.sublist (sublist_conditions_node inside)
      obtain ⟨test, differ⟩ := ih g inside innerDistinct innerCounts
      -- The subgroup decides in both trees.
      have whole := holds_focus distinct neutral test
      rw [← conditions_without, without, kept] at distinct
      have pruned := holds_focus distinct (kept ▸ constant) test
      refine ⟨focus g.conditions test k.neutral, ?_⟩
      rw [conditions_without] at pruned
      rw [without, kept, pruned, whole]
      exact differ
    · refine ⟨fun _ => k.neutral, ?_⟩
      rw [without, holds_node_eq_neutral_iff.mpr ⟨fun _ _ => rfl, constant⟩]
      exact Ne.symm same

/-! ### Predicates -/

/-- If the predicates of conditions are distinct, then every test of the conditions is made by some
    valuation of the predicates. -/
theorem exists_valuation {now : Now} {cs : List Condition} {fragments : List Predicate}
    (each : List.Forall₂ (fun c q => c.compile .nest now = .ok q) cs fragments) (distinct : fragments.Nodup)
    (test : Condition → Bool) : ∃ v : Predicate → Bool, ∀ c ∈ cs, c.holds v now = test c := by
  classical
  induction each with
  | nil => exact ⟨fun _ => true, nofun⟩
  | @cons c q cs fragments head tail ih =>
    obtain ⟨new, later⟩ := List.nodup_cons.mp distinct
    obtain ⟨v, agrees⟩ := ih later
    -- The valuation is changed at the predicate of the first condition, which no other condition has.
    refine ⟨Function.update v q (test c), List.forall_mem_cons.mpr ⟨?_, fun d inside => ?_⟩⟩
    · rw [Condition.holds, head]
      exact Function.update_self ..
    · obtain ⟨r, old, made⟩ := exists_mem_of_forall₂ tail d inside
      have other : r ≠ q := fun same => new (same ▸ old)
      rw [← agrees d inside, Condition.holds, Condition.holds, made]
      exact Function.update_of_ne other ..

variable {now : Now} {limit : Int} {p q : Predicate}

theorem exists_compile_without (compiled : g.compile now limit = .ok p) :
    ∃ q, (g.without isBare).compile now limit = .ok q := by
  obtain ⟨shallow, wellFormed, compiles⟩ := exists_compileAt_iff.mp ⟨p, compiled⟩
  have below := g.depth_without_le isBare
  exact exists_compileAt_iff.mpr ⟨by omega, wellFormed.without, conditions_without g ▸ compiles⟩

theorem omitsNeutral_of_holds_eq (compiled : g.compile now limit = .ok p)
    (reduced : (g.without isBare).compile now limit = .ok q) (distinct : p.fragments.Nodup)
    (agree : ∀ v, q.holds v = p.holds v) : g.OmitsNeutral := by
  have each := mapM_eq_ok_iff.mp (compile_conditions compiled)
  obtain ⟨wellFormed, -⟩ := wellFormed_of_compileAt compiled
  by_contra counts
  have functional : ∀ (c : Condition) q r, c.compile .nest now = .ok q → c.compile .nest now = .ok r → q = r :=
    fun c q r made again => Except.ok.inj (made.symm.trans again)
  have distinctConditions := nodup_of_forall₂ each functional distinct
  obtain ⟨test, differ⟩ := exists_holds_without_ne wellFormed distinctConditions counts
  obtain ⟨v, tests⟩ := exists_valuation each distinct test
  refine differ ?_
  rw [← holds_congr tests, ← holds_congr (conditions_without g ▸ tests), ← holds_compile_eq v compiled,
    ← holds_compile_eq v reduced, agree]

end Group

/-- How the description of a filter that the rules accept and its predicate are related. It reads like a
    filter without conditions exactly if it is one; then the predicate has the value of the tree under every
    valuation. It leaves out the subgroups without a condition at any depth, and reads the same without them.
    The predicates with and without them agree under every valuation if what is left out has no say, and
    only then, if no two conditions have the same predicate. -/
theorem holds_without_omitted (m : Matrix) (entity : String) (limit : Int) (labels : Labels) (now : Now) (g : Group)
    (accepted : g.violations m entity limit = []) :
    (g.describe? labels = some Group.noFilters ↔ g.conditions = []) ∧
    (g.describe? labels = some Group.noFilters →
      ∃ p, g.compile now limit = .ok p ∧ ∀ v test, p.holds v = g.holds test) ∧
    g.without (Group.isOmitted labels) = g.without Group.isBare ∧
    (g.without (Group.isOmitted labels)).describe? labels = g.describe? labels ∧
    (g.without (Group.isOmitted labels)).violations m entity limit = [] ∧
    ∀ p, g.compile now limit = .ok p → ∃ q, (g.without (Group.isOmitted labels)).compile now limit = .ok q ∧
      (g.OmitsNeutral → ∀ v, q.holds v = p.holds v) ∧
      (p.fragments.Nodup → (∀ v, q.holds v = p.holds v) → g.OmitsNeutral) := by
  obtain ⟨known, tree⟩ := Group.violations_eq_nil_iff.mp accepted
  obtain ⟨shallow, wellFormed, conditions⟩ := Group.violationsAt_eq_nil_iff.mp tree
  have plain := wellFormed.plain
  have silent : g.describe? labels = some Group.noFilters ↔ g.conditions = [] := by
    refine Group.describe?_eq_noFilters_iff plain fun c inside => ?_
    obtain ⟨-, op, -, named, -⟩ := Condition.violations_eq_nil_iff.mp (conditions c inside)
    exact ⟨op, named⟩
  rw [Group.without_isOmitted plain]
  refine ⟨silent, fun said => ?_, rfl, ?_, ?_, fun p compiled => ?_⟩
  · have bare := silent.mp said
    have compiles : ∀ c ∈ g.conditions, ∃ q, c.compile .nest now = .ok q := bare ▸ nofun
    obtain ⟨p, compiled⟩ := Group.exists_compileAt_iff.mpr ⟨shallow, wellFormed, compiles⟩
    refine ⟨p, compiled, fun v test => ?_⟩
    rw [Group.holds_compile_eq v compiled]
    exact Group.holds_of_bare bare ..
  · rw [Group.describe?, Group.describe?, Group.sentence?_eq_some plain,
      Group.sentence?_eq_some wellFormed.without.plain, Group.words_without plain]
  · have below := g.depth_without_le Group.isBare
    refine Group.violations_eq_nil_iff.mpr ⟨known, Group.violationsAt_eq_nil_iff.mpr ⟨by omega, wellFormed.without, ?_⟩⟩
    rw [Group.conditions_without]
    exact conditions
  · obtain ⟨q, reduced⟩ := Group.exists_compile_without compiled
    refine ⟨q, reduced, fun neutral v => ?_, Group.omitsNeutral_of_holds_eq compiled reduced⟩
    rw [Group.holds_compile_eq v compiled, Group.holds_compile_eq v reduced]
    exact neutral.holds_without _

/-- Open deals. -/
def openDeals : Condition := ⟨"status", "equals", .str "OPEN", .null⟩

/-- Deals of more than a thousand. -/
def largeDeals : Condition := ⟨"value", "greater_than", .int 1000, .null⟩

/-- An `AND` of none below `AND` and an `OR` of none below `OR` are left out, and have no say. -/
theorem holds_without_omitted_neutral :
    let now : Now := ⟨⟨⟨2024, 5, 15, by decide⟩, .midnight, none⟩, none⟩
    let g : Group := .node "AND" [.condition openDeals]
      [.node "AND" [] [], .node "OR" [.condition largeDeals] [.node "OR" [] []]]
    let large : Predicate := .object [("value", .object [("gt", .int 1000)])]
    let isOpen : Predicate := .object [("status", .object [("equals", .text "OPEN")])]
    let p : Predicate := .object [("AND", .list
      [isOpen, .always, .object [("OR", .list [large, .object [("OR", .list [])]])]])]
    g.violations .packaged "deals" 10 = [] ∧
      g.without (Group.isOmitted []) = .node "AND" [.condition openDeals] [.node "OR" [.condition largeDeals] []] ∧
      g.compile now 10 = .ok p ∧ ∀ v, (Predicate.object [("AND", .list [isOpen, large])]).holds v = p.holds v := by
  intro now g large isOpen p
  have accepted : g.violations .packaged "deals" 10 = [] := by decide
  have compiled : g.compile now 10 = .ok p := rfl
  have inner : (Group.node "OR" [.condition largeDeals] [.node "OR" [] []]).OmitsNeutral :=
    .node .any [largeDeals] (List.forall_mem_singleton.mpr fun _ => rfl)
      (List.forall_mem_singleton.mpr fun some => absurd rfl some)
  have neutral : g.OmitsNeutral :=
    .node .all [openDeals] (List.forall_mem_cons.mpr ⟨fun _ => rfl, List.forall_mem_singleton.mpr nofun⟩)
      (List.forall_mem_cons.mpr ⟨fun some => absurd rfl some, List.forall_mem_singleton.mpr fun _ => inner⟩)
  obtain ⟨-, -, -, -, -, faithful⟩ := holds_without_omitted .packaged "deals" 10 [] now g accepted
  obtain ⟨q, reduced, same, -⟩ := faithful p compiled
  cases reduced
  exact ⟨accepted, rfl, compiled, same neutral⟩

/-- An `OR` of none reads like a filter that lets everything through and lets nothing through; beside a
    condition it is not told, and again nothing is let through. -/
theorem omitted_or_decides :
    let now : Now := ⟨⟨⟨2024, 5, 15, by decide⟩, .midnight, none⟩, none⟩
    let nothing : Group := .node "OR" [] []
    let g : Group := .node "AND" [.condition openDeals] [nothing]
    (nothing.violations .packaged "deals" 10 = [] ∧ nothing.describe? [] = some Group.noFilters ∧
      ∃ p, nothing.compile now 10 = .ok p ∧ ∀ v, p.holds v = false) ∧
    (g.violations .packaged "deals" 10 = [] ∧ ∃ p q, g.compile now 10 = .ok p ∧
      (g.without (Group.isOmitted [])).compile now 10 = .ok q ∧
      p.holds (fun _ => true) = false ∧ q.holds (fun _ => true) = true) :=
  ⟨⟨by decide, rfl, _, rfl, fun _ => rfl⟩, by decide, _, _, rfl, rfl, rfl, rfl⟩

end Criteria
