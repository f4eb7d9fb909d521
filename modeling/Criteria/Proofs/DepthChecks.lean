import Criteria.Matrix.Packaged
import Criteria.Proofs.Compiled
import Criteria.Proofs.Leaf
import Criteria.Proofs.Levels

/-!
The depth of a tree, checked three times: on the value that was sent, by the rules and in
compilation. The rules find a tree too deep, and say so in words of their own, exactly if
it has more levels than may be (`Group.tooDeepMessage_mem_iff`); compilation does so
only then (`Group.lt_depth_of_compileAt_tooDeep`), and always then if the tree compiles
otherwise (`Group.compileAt_of_wellFormed`). So the checks agree for every limit, and a
tree that was taken passes the later ones (`Group.depth_checks_agree`).
-/
namespace Criteria

/-! ### The rules -/

theorem take_tooDeepMessage (limit : Int) :
    (tooDeepMessage limit).toList.take 13 = ['F', 'i', 'l', 't', 'e', 'r', ' ', 'g', 'r', 'o', 'u', 'p', 's'] := by
  unfold tooDeepMessage
  simp

/-- The words for a tree that is too deep are those of no other violation. -/
theorem Violation.exists_tooDeep_of_message {v : Violation} {limit : Int} (same : v.message = tooDeepMessage limit) :
    ∃ n, v = .tooDeep n := by
  have start := take_tooDeepMessage limit
  rw [← same] at start
  unfold message at start
  cases v with
  | tooDeep n => exact ⟨n, rfl⟩
  | _ => simp [aboutOperator, inQuotes] at start

theorem Condition.OperandReport.tooDeep_not_mem {c : Condition} {op : Operator} {found : List Violation} {n : Int}
    (report : c.OperandReport op found) : .tooDeep n ∉ found := by
  cases report <;> simp

theorem Condition.Report.tooDeep_not_mem {m : Matrix} {entity : String} {c : Condition} {found : List Violation}
    {n : Int} (report : c.Report m entity found) : .tooDeep n ∉ found := by
  cases report with
  | unsupportedField | unknownOperator => simp
  | allowed _ _ _ operand => exact operand.tooDeep_not_mem
  | notAllowed _ _ _ operand => simp [operand.tooDeep_not_mem]

theorem Member.tooDeep_not_mem_violations {m : Matrix} {entity : String} {x : Member} {n : Int} :
    .tooDeep n ∉ x.violations m entity := by
  cases x with
  | condition c => exact (Condition.report_iff.mpr rfl : c.Report m entity (c.violations m entity)).tooDeep_not_mem
  | foreign value => simp [violations]

namespace Group

variable {m : Matrix} {entity : String} {limit level : Int}

/-- The rules find a tree too deep exactly if it does not fit between its level and the limit. -/
theorem tooDeep_mem_violationsAt_iff {g : Group} {n : Int} (plain : g.Plain) :
    .tooDeep n ∈ g.violationsAt m entity limit level ↔ n = limit ∧ limit + 1 < level + g.depth := by
  induction plain generalizing level with
  | node operator cs nested ih =>
    rename_i groups
    have positive := (Group.node operator (cs.map .condition) groups).depth_pos
    by_cases deep : limit < level
    · rw [violationsAt, if_pos deep, List.mem_singleton, Violation.tooDeep.injEq]
      exact ⟨fun same => ⟨same, by omega⟩, And.left⟩
    · have own : .tooDeep n ∉ ((cs.map Member.condition).map (Member.violations m entity)).flatten := by
        intro inside
        obtain ⟨found, listed, member⟩ := List.mem_flatten.mp inside
        obtain ⟨x, -, rfl⟩ := List.mem_map.mp listed
        exact Member.tooDeep_not_mem_violations member
      have head : .tooDeep n ∉ (if (Connective.ofName? operator).isSome then []
          else [Violation.unknownConnective operator]) := by
        split <;> simp
      have deepest := @depths_le_iff groups (limit - level).toNat
      rw [violationsAt_node _ _ _ _ (by omega), List.mem_append, List.mem_append, or_iff_right head, or_iff_right own,
        violationsOfAll_eq_flatMap, List.mem_flatMap, depth]
      constructor
      · rintro ⟨g, inside, found⟩
        obtain ⟨rfl, beyond⟩ := (ih g inside).mp found
        have := depths_le_iff.mp (Nat.le_refl (depths groups)) g inside
        exact ⟨rfl, by omega⟩
      · rintro ⟨rfl, beyond⟩
        by_contra none
        have shallow : depths groups ≤ (n - level).toNat := by
          refine deepest.mpr fun g inside => ?_
          by_contra more
          exact none ⟨g, inside, (ih g inside).mpr ⟨rfl, by omega⟩⟩
        omega

/-- So the words for a tree that is too deep are among those of the rules. -/
theorem tooDeepMessage_mem_iff {g : Group} (plain : g.Plain) (known : m.hasEntity entity = true) :
    tooDeepMessage limit ∈ (g.violations m entity limit).map (·.message) ↔ limit < g.depth := by
  rw [violations, if_pos known, List.mem_map]
  constructor
  · rintro ⟨v, inside, same⟩
    obtain ⟨n, rfl⟩ := Violation.exists_tooDeep_of_message same
    have := ((tooDeep_mem_violationsAt_iff plain).mp inside).2
    omega
  · intro deep
    exact ⟨.tooDeep limit, (tooDeep_mem_violationsAt_iff plain).mpr ⟨rfl, by omega⟩, rfl⟩

end Group

/-! ### Compilation -/

/-- No condition is too deep. -/
theorem Condition.leafOf_ne_tooDeep {now : Calendar.Now} {c : Condition} {op : Operator} {n : Int} :
    c.leafOf now op ≠ .error (.tooDeep n) := by
  intro failed
  cases failure_of_leafOf_error failed

theorem Member.compile_ne_tooDeep {place : List String → Predicate → Predicate} {now : Calendar.Now} {x : Member}
    {n : Int} : x.compile place now ≠ .error (.tooDeep n) := by
  intro failed
  cases x with
  | condition c =>
    have leaf := Condition.compile_error_iff.mp failed
    unfold Condition.leaf at leaf
    split at leaf
    · cases leaf
    · exact Condition.leafOf_ne_tooDeep leaf
  | foreign value => cases failed

namespace Group

variable {place : List String → Predicate → Predicate} {now : Calendar.Now} {limit level : Int}

/-- Compilation finds a tree too deep only if it does not fit between its level and the limit. -/
theorem lt_depth_of_compileAt_tooDeep {g : Group} {n : Int}
    (failed : compileAt place now limit level g = .error (.tooDeep n)) : limit + 1 < level + g.depth := by
  induction g using Group.induction generalizing level with
  | node operator members groups ih =>
    have positive := (Group.node operator members groups).depth_pos
    rw [compileAt_node] at failed
    split at failed
    · omega
    · split at failed
      · cases failed
      · rcases bind_eq_error_iff.mp failed with own | ⟨_, -, later⟩
        · obtain ⟨x, -, fails⟩ := exists_of_mapM_eq_error own
          exact absurd fails Member.compile_ne_tooDeep
        · rcases bind_eq_error_iff.mp later with nested | ⟨_, -, impossible⟩
          · obtain ⟨g, inside, fails⟩ := exists_of_mapM_eq_error nested
            have deeper := ih g inside fails
            have := depths_le_iff.mp (Nat.le_refl (depths groups)) g inside
            rw [depth]
            omega
          · exact absurd impossible pure_ne_error
  | foreign value =>
    rw [compileAt] at failed
    split at failed
    · rw [depth]
      omega
    · cases failed

/-- A well-formed tree whose conditions compile is compiled if it fits between its level and the
    limit, and found too deep if it does not. -/
theorem compileAt_of_wellFormed {g : Group} (wellFormed : g.WellFormed)
    (compiles : ∀ c ∈ g.conditions, ∃ p, c.compile place now = .ok p) :
    (level + g.depth ≤ limit + 1 ∧ ∃ p, compileAt place now limit level g = .ok p) ∨
      (limit + 1 < level + g.depth ∧ compileAt place now limit level g = .error (.tooDeep limit)) := by
  induction wellFormed generalizing level with
  | @node k cs groups nested ih =>
    have parts (g : Group) (inside : g ∈ groups) (level : Int) := @ih g inside level fun c deeper =>
      compiles c (mem_conditions_node_iff.mpr (.inr ⟨g, inside, deeper⟩))
    have positive := (Group.node k.name (cs.map .condition) groups).depth_pos
    by_cases deep : limit < level
    · right
      refine ⟨by omega, ?_⟩
      rw [compileAt_node, if_pos deep]
    · have ownCompile : ∃ own, (cs.map Member.condition).mapM (Member.compile place now) = .ok own := by
        have each : ∀ x ∈ cs.map Member.condition, ∃ p, x.compile place now = .ok p := by
          intro x inside
          obtain ⟨c, member, rfl⟩ := List.mem_map.mp inside
          exact compiles c (mem_conditions_node_iff.mpr (.inl inside))
        obtain ⟨own, related⟩ := exists_forall₂ each
        exact ⟨own, mapM_eq_ok_iff.mpr related⟩
      obtain ⟨own, ownCompile⟩ := ownCompile
      cases nestedCompile : groups.mapM (compileAt place now limit (level + 1)) with
      | ok predicates =>
        left
        have shallow : depths groups ≤ (limit - level).toNat := by
          refine depths_le_iff.mpr fun g inside => ?_
          have related := mapM_eq_ok_iff.mp nestedCompile
          obtain ⟨p, made⟩ := forall_mem_of_forall₂ related (fun g p made => Exists.intro p made) g inside
          rcases parts g inside (level + 1) with ⟨within, -⟩ | ⟨-, failed⟩
          · omega
          · rw [made] at failed
            cases failed
        refine ⟨?_, _, compileAt_node_eq_ok_iff.mpr
          ⟨by omega, k, own, predicates, rfl, ownCompile, nestedCompile, rfl⟩⟩
        rw [depth]
        omega
      | error e =>
        right
        obtain ⟨g, inside, fails⟩ := exists_of_mapM_eq_error nestedCompile
        rcases parts g inside (level + 1) with ⟨-, p, made⟩ | ⟨beyond, failed⟩
        · rw [made] at fails
          cases fails
        · cases failed.symm.trans fails
          have := depths_le_iff.mp (Nat.le_refl (depths groups)) g inside
          refine ⟨by rw [depth]; omega, ?_⟩
          rw [compileAt_node, if_neg deep, Connective.ofName?_name, if_neg (by simp), ownCompile, nestedCompile]
          rfl

end Group

theorem Request.filters_of_ofJson {entries : List (String × Json)} {r : Request}
    (read : Request.ofJson (.obj entries) = .ok r) :
    r.filters = Group.empty ∨ Group.ofJson (Json.getOrNull "filters" entries) = .ok r.filters := by
  have rest : ∀ filters, (do
      let sort ← optional SortKey.ofJson (Json.getOrNull "sort" entries)
      let pagination ← optional PageRequest.ofJson (Json.getOrNull "pagination" entries)
      pure (⟨Json.textOr "" "entity" entries, filters, Json.getOrNull "search" entries, sort, pagination⟩ : Request)) =
        Except.ok r → r.filters = filters := by
    intro filters made
    obtain ⟨sort, -, made⟩ := bind_eq_ok_iff.mp made
    obtain ⟨pagination, -, made⟩ := bind_eq_ok_iff.mp made
    obtain rfl := pure_eq_ok_iff.mp made
    rfl
  obtain ⟨_, same, made⟩ := bind_eq_ok_iff.mp read
  cases same
  simp only at made
  split at made
  · exact .inl (rest _ made)
  · obtain ⟨filters, isFilters, made⟩ := bind_eq_ok_iff.mp made
    right
    rw [isFilters, rest filters made]

/-! ### Agreement -/

namespace Group

variable {limit : Int}

/-- No chain of groups in a tree is longer than the limit. -/
def Within (limit : Int) (g : Group) : Prop := ∀ n, g.Chain n → n ≤ limit

/-- A tree is found too deep neither by the rules, for any entity of any matrix, nor in
    compilation at any moment, wherever the leaves are placed. -/
def PassesDepthChecks (limit : Int) (g : Group) : Prop :=
  (∀ (m : Matrix) (entity : String), tooDeepMessage limit ∉ (g.violations m entity limit).map (·.message)) ∧
    ∀ (place : List String → Predicate → Predicate) (now : Calendar.Now) (n : Int),
      compileAt place now limit 1 g ≠ .error (.tooDeep n)

theorem passesDepthChecks_of_within {g : Group} (plain : g.Plain) (within : g.Within limit) :
    g.PassesDepthChecks limit := by
  have shallow : g.depth ≤ limit := depth_le_iff.mpr within
  constructor
  · intro m entity told
    by_cases known : m.hasEntity entity = true
    · have := (tooDeepMessage_mem_iff plain known).mp told
      omega
    · rw [violations, if_neg known, List.map_singleton, List.mem_singleton] at told
      obtain ⟨n, impossible⟩ := Violation.exists_tooDeep_of_message told.symm
      cases impossible
  · intro place now n failed
    have := lt_depth_of_compileAt_tooDeep failed
    omega

theorem isTooDeep_eq_false_iff {x : Json} {g : Group} (read : ofJson x = .ok g) :
    isTooDeep limit .group x = false ↔ g.Within limit := by
  rw [isTooDeep, Subject.levels, levels_eq_depth read, decide_eq_false_iff_not, Int.not_lt]
  exact depth_le_iff

theorem isTooDeep_of_admit {checked : Bool} {subject : Subject} {x : Json} {u : Unit}
    (admitted : subject.admit checked x = .ok u) : isTooDeep defaultDepth subject x = false := by
  unfold Subject.admit at admitted
  split at admitted
  · cases admitted
  · rename_i shallow
    exact Bool.not_eq_true _ ▸ shallow

/-- The checks of the depth agree on a value and the tree that it is read as: the check of the value,
    also if it is made with a stack, that of the rules for a known entity, and that of compilation
    if the tree compiles otherwise, find nothing exactly if no chain of groups is longer than the
    limit. So a tree that was taken, its shape checked or not, passes the later checks. -/
theorem depth_checks_agree :
    (∀ (x : Json) (g : Group) (limit : Int), ofJson x = .ok g →
      (isTooDeep limit .group x = false ↔ g.Within limit) ∧
      (Json.anyBelow limit [(x, 1)] = false ↔ g.Within limit) ∧
      (∀ (m : Matrix) (entity : String), m.hasEntity entity = true →
        (tooDeepMessage limit ∉ (g.violations m entity limit).map (·.message) ↔ g.Within limit)) ∧
      ∀ (place : List String → Predicate → Predicate) (now : Calendar.Now), g.WellFormed →
        (∀ c ∈ g.conditions, ∃ p, c.compile place now = .ok p) →
        ((∀ n, compileAt place now limit 1 g ≠ .error (.tooDeep n)) ↔ g.Within limit)) ∧
    (∀ (checked : Bool) (payload : Payload) (g : Group), parse checked payload = .ok g →
      g.PassesDepthChecks defaultDepth) ∧
    ∀ (checked : Bool) (payload : Payload) (r : Request), Request.parse checked payload = .ok r →
      r.filters.PassesDepthChecks defaultDepth := by
  refine ⟨?_, ?_, ?_⟩
  · intro x g limit read
    have plain := plain_of_ofJson read
    refine ⟨isTooDeep_eq_false_iff read, ?_, ?_, ?_⟩
    · have found := @Json.anyBelow_iff limit [(x, 1)]
      rw [← Bool.not_eq_true, found, Within, ← depth_le_iff, ← levels_eq_depth read]
      simp only [List.mem_singleton, exists_eq_left]
      omega
    · intro m entity known
      rw [tooDeepMessage_mem_iff plain known, Within, ← depth_le_iff, Int.not_lt]
    · intro place now wellFormed compiles
      rw [Within, ← depth_le_iff]
      rcases @compileAt_of_wellFormed place now limit 1 g wellFormed compiles with ⟨within, p, made⟩ | ⟨beyond, failed⟩
      · rw [made]
        exact iff_of_true nofun (by omega)
      · rw [failed]
        exact iff_of_false (fun never => never limit rfl) (by omega)
  · intro checked payload g parsed
    obtain ⟨x, -, later⟩ := bind_eq_ok_iff.mp parsed
    obtain ⟨_, admitted, read⟩ := bind_eq_ok_iff.mp later
    have read := mapError_eq_ok_iff.mp read
    have shallow := isTooDeep_of_admit admitted
    exact passesDepthChecks_of_within (plain_of_ofJson read) ((isTooDeep_eq_false_iff read).mp shallow)
  · intro checked payload r parsed
    obtain ⟨x, -, later⟩ := bind_eq_ok_iff.mp parsed
    obtain ⟨_, admitted, read⟩ := bind_eq_ok_iff.mp later
    have read := mapError_eq_ok_iff.mp read
    have shallow := isTooDeep_of_admit admitted
    cases x with
    | obj entries =>
      rcases Request.filters_of_ofJson read with none | given
      · rw [none]
        exact passesDepthChecks_of_within (.node _ [] nofun) (depth_le_iff.mp (by decide))
      · exact passesDepthChecks_of_within (plain_of_ofJson given) ((isTooDeep_eq_false_iff given).mp shallow)
    | _ => cases read

/-- Groups on three levels; two of them list no groups, one by an empty text. -/
def threeLevels : Json :=
  .obj [("operator", .str "AND"), ("groups", .arr [.obj [("groups", .str "")],
    .obj [("operator", .str "OR"), ("groups", .arr [.obj [("conditions", .null)]])]])]

/-- Each of the checks finds three levels too deep for a limit of two; taken under the limit of ten,
    they pass the later checks, also as the filter of a request. -/
theorem depth_checks_agree_on_threeLevels :
    let g : Group := .node "AND" [] [.node "AND" [] [], .node "OR" [] [.node "AND" [] []]]
    let now : Calendar.Now := ⟨⟨⟨2024, 6, 15, by decide⟩, .midnight, none⟩, none⟩
    ofJson threeLevels = .ok g ∧ isTooDeep 2 .group threeLevels = true ∧ Json.anyBelow 2 [(threeLevels, 1)] = true ∧
      tooDeepMessage 2 ∈ (g.violations .packaged "deals" 2).map (·.message) ∧
      (∃ n, g.compile now 2 = .error (.tooDeep n)) ∧ g.Within 3 ∧ g.PassesDepthChecks defaultDepth ∧
      (Request.mk "" g .null none none).filters.PassesDepthChecks defaultDepth := by
  intro g now
  obtain ⟨agree, taken, asked⟩ := depth_checks_agree
  have read : ofJson threeLevels = .ok g := rfl
  have leaf : (Group.node "AND" [] []).WellFormed := .node .all [] nofun
  have wellFormed : g.WellFormed := by
    refine .node .all [] (List.forall_mem_cons.mpr ⟨leaf, List.forall_mem_singleton.mpr ?_⟩)
    exact .node .any [] (List.forall_mem_singleton.mpr leaf)
  obtain ⟨sent, stack, rules, compiled⟩ := agree threeLevels g 2 read
  have deep : isTooDeep 2 .group threeLevels = true := rfl
  have long : ¬ g.Within 2 := by
    rw [← sent, deep]
    exact nofun
  have short : isTooDeep 3 .group threeLevels = false := rfl
  refine ⟨read, deep, ?_, ?_, ?_, (agree threeLevels g 3 read).1.mp short, taken false (.value threeLevels) g rfl,
    asked false (.value (.obj [("filters", threeLevels)])) _ rfl⟩
  · rwa [← stack, Bool.not_eq_false] at long
  · rwa [← rules .packaged "deals" (by decide), not_not] at long
  · by_contra never
    refine long ((compiled .nest now wellFormed ?_).mp (not_exists.mp never))
    intro c inside
    have none : g.conditions = [] := rfl
    rw [none] at inside
    exact absurd inside List.not_mem_nil

end Group

end Criteria
