import Criteria.Matrix.Packaged
import Criteria.Proofs.Built
import Criteria.Service.Routes

/-!
The rules are sound for compilation. A filter that breaks no rule has a predicate,
unless a date that one of its conditions leads to lies outside the years 1 to 9999
(`compile_of_no_violations`). So the answer for a filter that passed the rules by
mistake is never given.
-/
namespace Criteria

open Calendar (Now RelativeWindow)

/-- A condition that breaks no rule fails only where a date leaves the calendar. -/
theorem Condition.leavesCalendar_of_compile_error {m : Matrix} {entity : String} {c : Condition}
    {place : List String → Predicate → Predicate} {now : Now} {e : CompileFault}
    (accepted : c.violations m entity = []) (failed : c.compile place now = .error e) :
    ∃ fault, e = .calendar fault ∧ c.LeavesCalendar now fault := by
  obtain ⟨allowed, op, -, named, -, fits⟩ := violations_eq_nil_iff.mp accepted
  rw [compile_error_iff, leaf_eq_leafOf named] at failed
  exact leafOf_error named fits failed

namespace Group

variable {m : Matrix} {entity : String} {place : List String → Predicate → Predicate} {now : Now}
  {limit level : Int}

/-- The fault of a tree that breaks no rule is the fault of one of its conditions. -/
theorem exists_condition_of_compileAt_error {g : Group} {e : CompileFault}
    (accepted : g.violationsAt m entity limit level = [])
    (failed : compileAt place now limit level g = .error e) :
    ∃ c ∈ g.conditions, c.compile place now = .error e := by
  induction g using Group.induction generalizing level with
  | node operator members groups ih =>
    obtain ⟨within, ⟨k, rfl⟩, own, nested⟩ := violationsAt_node_eq_nil_iff.mp accepted
    rw [compileAt_node, if_neg (by omega), Connective.ofName?_name, if_neg (by simp)] at failed
    rcases bind_eq_error_iff.mp failed with member | ⟨predicates, -, later⟩
    · obtain ⟨x, inside, fails⟩ := exists_of_mapM_eq_error member
      cases x with
      | condition c => exact ⟨c, mem_conditions_node_iff.mpr (.inl inside), fails⟩
      | foreign value => cases own _ inside
    · rcases bind_eq_error_iff.mp later with subgroup | ⟨others, -, impossible⟩
      · obtain ⟨g, inside, fails⟩ := exists_of_mapM_eq_error subgroup
        obtain ⟨c, deeper, condition⟩ := ih g inside (nested g inside) fails
        exact ⟨c, mem_conditions_node_iff.mpr (.inr ⟨g, inside, deeper⟩), condition⟩
      · exact absurd impossible pure_ne_error
  | foreign value => cases accepted

/-- A tree that breaks no rule fails only where a date of one of its conditions leaves
    the calendar. -/
theorem leavesCalendar_of_compile_error {g : Group} {e : CompileFault}
    (accepted : g.violationsAt m entity limit 1 = []) (failed : g.compile now limit = .error e) :
    ∃ fault, e = .calendar fault ∧ ∃ c ∈ g.conditions, c.LeavesCalendar now fault := by
  obtain ⟨c, inside, fails⟩ := exists_condition_of_compileAt_error accepted failed
  obtain ⟨fault, rfl, leaves⟩ :=
    Condition.leavesCalendar_of_compile_error (violations_eq_nil_of_mem_conditions accepted inside) fails
  exact ⟨fault, rfl, c, inside, leaves⟩

end Group

namespace Service

namespace Response

/-- The answer for a filter that passed the rules by mistake. -/
def compilationFailed : Response := wrong 500 (.str "Filter compilation failed")

theorem ok_ne_compilationFailed (x : Json) : ok x ≠ compilationFailed := by
  simp [ok, compilationFailed, wrong]

theorem refused_ne_compilationFailed (r : Rejection) : refused r ≠ compilationFailed := by
  simp [refused, compilationFailed, wrong]

theorem failed_ne_compilationFailed : failed ≠ compilationFailed := by
  simp [failed, compilationFailed, wrong]

end Response

theorem queryFailed_ne_compilationFailed {m : Matrix} {sizes : PageSizes} {now : Now} {r : Request}
    {fault : QueryFault} (failed : Query.build m sizes now r = .error fault) :
    queryFailed fault ≠ .compilationFailed := by
  cases fault with
  | invalid found => exact Response.refused_ne_compilationFailed _
  | filter e =>
    obtain ⟨accepted, compiled⟩ := Query.build_error_filter failed
    obtain ⟨-, tree, -⟩ := violations_eq_nil_iff.mp accepted
    obtain ⟨fault, rfl, -⟩ := Group.leavesCalendar_of_compile_error tree compiled
    exact Response.failed_ne_compilationFailed
  | badSearch search => exact Response.failed_ne_compilationFailed

theorem filter_ne_compilationFailed (s : Setting) (x : Json) : filter s x ≠ .compilationFailed := by
  unfold filter
  split
  · split
    · exact Response.refused_ne_compilationFailed _
    · exact Response.failed_ne_compilationFailed
  · split
    · rename_i fault failed
      exact queryFailed_ne_compilationFailed failed
    · split
      · exact Response.ok_ne_compilationFailed _
      · exact Response.failed_ne_compilationFailed

end Service

/-- A filter and a sort key that break no rule compile, for every matrix and limit and
    at every present moment, unless a date that one of the conditions leads to lies
    outside the years 1 to 9999. No filter request at all is answered as one whose
    filter passed the rules by mistake. -/
theorem compile_of_no_violations (m : Matrix) (limit : Int) (entity : String) (g : Group) (sort : Option SortKey)
    (now : Now) (accepted : violations m limit entity g sort = []) :
    ((∃ p, g.compile now limit = .ok p) ∨
      ∃ fault, g.compile now limit = .error (.calendar fault) ∧ ∃ c ∈ g.conditions, c.LeavesCalendar now fault) ∧
    ∀ (s : Service.Setting) (x : Json), Service.filter s x ≠ .compilationFailed := by
  refine ⟨?_, Service.filter_ne_compilationFailed⟩
  obtain ⟨-, tree, -⟩ := violations_eq_nil_iff.mp accepted
  cases result : g.compile now limit with
  | ok p => exact .inl ⟨p, rfl⟩
  | error e =>
    obtain ⟨fault, rfl, leaves⟩ := Group.leavesCalendar_of_compile_error tree result
    exact .inr ⟨fault, rfl, leaves⟩

/-- The rules accept a filter for this month and for a leap day; in the last month of the
    calendar there is no predicate for it. -/
theorem compile_in_last_month :
    let month : Condition := ⟨"createdAt", "date_relative", .str "this_month", .null⟩
    let day : Condition := ⟨"expectedCloseDate", "date_equals", .str "2024-02-29", .null⟩
    let g : Group := .node "AND" [.condition month] [.node "OR" [.condition day] [.node "AND" [] []]]
    let now : Now := ⟨⟨⟨9999, 12, 15, by decide⟩, .midnight, none⟩, none⟩
    violations .packaged 10 "deals" g (some ⟨"title", "desc"⟩) = [] ∧
      g.compile now 10 = .error (.calendar (.year 10000)) ∧
      (((∃ p, g.compile now 10 = .ok p) ∨
        ∃ fault, g.compile now 10 = .error (.calendar fault) ∧ ∃ c ∈ g.conditions, c.LeavesCalendar now fault) ∧
      ∀ (s : Service.Setting) (x : Json), Service.filter s x ≠ .compilationFailed) := by
  refine ⟨by decide, rfl, ?_⟩
  exact compile_of_no_violations .packaged 10 "deals" _ (some ⟨"title", "desc"⟩) _ (by decide)

end Criteria
