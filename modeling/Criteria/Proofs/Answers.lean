import Criteria.Proofs.Parsed
import Criteria.Proofs.Sentence
import Criteria.Proofs.Soundness

/-!
What a filter request is answered with. A request that the rules accept has a term to
look for and a description, so the service fails only where a condition that the rules
accept leads to a date outside the years 1 to 9999: it names the last day of them, or a
window that leaves them on the present day (`Condition.exists_leavesCalendar_iff`). Every
other request is answered with a query or refused with reasons (`Service.filter_answers`).
-/
namespace Criteria

open Calendar (Moment Now RelativeWindow)

/-! ### Conditions at the ends of the calendar -/

namespace Condition

variable {now : Now} {c : Condition}

/-- A condition asks for the last day that has a date, or for a window that leaves the
    calendar on the present day. -/
inductive AtCalendarEnd (now : Now) (c : Condition) : Prop
  | lastDay {moment : Moment} (named : c.operator = Operator.dateEquals.name)
      (read : dateOperand c.value = .ok moment) (last : moment.date = .last) : AtCalendarEnd now c
  | window {w : RelativeWindow} (named : c.operator = Operator.dateRelative.name) (isName : c.value = .str w.name)
      (leaves : w.LeavesCalendar now.moment.date) : AtCalendarEnd now c

theorem exists_leavesCalendar_iff : (∃ fault, c.LeavesCalendar now fault) ↔ c.AtCalendarEnd now := by
  constructor
  · rintro ⟨fault, ⟨named, -, moment, read, late⟩ | ⟨named, w, isName, -, late⟩⟩
    · exact .lastDay named read (Moment.addDays_startOfDay_error_iff.mp ⟨fault, late⟩)
    · refine .window named isName ?_
      by_contra inside
      obtain ⟨window, found⟩ := RelativeWindow.exists_resolve_iff.mpr inside
      exact absurd (found.symm.trans late) nofun
  · rintro (⟨named, read, last⟩ | ⟨named, isName, leaves⟩)
    · rename_i moment
      obtain ⟨fault, late⟩ := Moment.addDays_startOfDay_error_iff.mpr last
      exact ⟨fault, .inl ⟨named, Moment.addDays_error late, moment, read, late⟩⟩
    · rename_i w
      obtain ⟨fault, late⟩ := exists_error_iff.mpr (mt RelativeWindow.exists_resolve_iff.mp (not_not.mpr leaves))
      exact ⟨fault, .inr ⟨named, w, isName, RelativeWindow.resolve_error late, late⟩⟩

theorem leaf_error_of_leavesCalendar {fault : Calendar.Fault} (leaves : c.LeavesCalendar now fault) :
    c.leaf now = .error (.calendar fault) := by
  rcases leaves with ⟨named, -, moment, read, late⟩ | ⟨named, w, isName, -, late⟩
  · rw [leaf_eq_leafOf named]
    exact (Failure.noEnd read late).leafOf_eq_error
  · rw [leaf_eq_leafOf named]
    have isWindow : RelativeWindow.ofName? c.value.display = some w := by
      rw [isName, Json.display, RelativeWindow.ofName?_name]
    exact (Failure.noWindow isWindow late).leafOf_eq_error

end Condition

namespace Group

variable {m : Matrix} {entity : String} {limit level : Int} {now : Now} {g : Group}

/-- A tree that breaks no rule has no predicate exactly if one of its conditions leads to
    a date outside the calendar. -/
theorem exists_compile_error_iff (accepted : g.violationsAt m entity limit 1 = []) :
    (∃ e, g.compile now limit = .error e) ↔ ∃ c ∈ g.conditions, c.AtCalendarEnd now := by
  constructor
  · rintro ⟨e, failed⟩
    obtain ⟨fault, -, c, inside, leaves⟩ := leavesCalendar_of_compile_error accepted failed
    exact ⟨c, inside, Condition.exists_leavesCalendar_iff.mp ⟨fault, leaves⟩⟩
  · rintro ⟨c, inside, atEnd⟩
    rw [exists_error_iff]
    rintro ⟨p, compiled⟩
    obtain ⟨fault, leaves⟩ := Condition.exists_leavesCalendar_iff.mpr atEnd
    have each := mapM_eq_ok_iff.mp (compile_conditions compiled)
    have compiles : ∀ c ∈ g.conditions, ∃ q, c.compile .nest now = .ok q :=
      forall_mem_of_forall₂ each fun c q made => ⟨q, made⟩
    obtain ⟨q, made⟩ := compiles c inside
    obtain ⟨leaf, found, -⟩ := Condition.compile_eq_ok_iff.mp made
    exact absurd (found.symm.trans (Condition.leaf_error_of_leavesCalendar leaves)) nofun

/-- A tree that breaks no rule can be described. -/
theorem exists_description (labels : Labels) (accepted : g.violationsAt m entity limit level = []) :
    ∃ text, g.describe? labels = some text := by
  obtain ⟨-, wellFormed, -⟩ := violationsAt_eq_nil_iff.mp accepted
  rw [describe?, sentence?_eq_some wellFormed.plain]
  exact ⟨_, rfl⟩

end Group

theorem Json.Term.exists_searchTerm {v : Option Json} {term : Json} (given : Json.Term v term) :
    ∃ text, searchTerm? term = some text := by
  cases given <;> exact ⟨_, rfl⟩

/-! ### Answers -/

namespace Service

theorem Response.ok_ne_failed (x : Json) : Response.ok x ≠ .failed := by
  simp [Response.ok, Response.failed]

theorem Response.refused_ne_failed (r : Rejection) : Response.refused r ≠ .failed := by
  simp [Response.refused, Response.failed, Response.wrong]

variable {s : Setting} {x : Json} {r : Request}

theorem filter_of_not_described (nothing : ¬ ∃ r, x.DescribesRequest r) :
    ∃ details, details ≠ [] ∧ filter s x = .refused ⟨"Malformed filter query", details⟩ := by
  cases parsed : Request.parse true (.value x) with
  | ok r => exact absurd ⟨r, Request.parse_value_eq_ok_iff.mp parsed⟩ nothing
  | error fault =>
    obtain ⟨details, reasons, told⟩ := Request.exists_rejection_of_parse_value_error parsed
    refine ⟨details, reasons, ?_⟩
    rw [filter, parsed]
    simp only [told]
    rfl

theorem filter_of_build_error {fault : QueryFault} (described : x.DescribesRequest r)
    (unbuilt : Query.build s.matrix s.sizes s.now r = .error fault) : filter s x = queryFailed fault := by
  rw [filter, Request.parse_value_eq_ok_iff.mpr described]
  simp only [unbuilt]

theorem filter_of_build_ok {query : Query} {description : String} (described : x.DescribesRequest r)
    (built : Query.build s.matrix s.sizes s.now r = .ok query) (told : r.filters.describe? [] = some description) :
    filter s x = .ok (queryJson query description) := by
  rw [filter, Request.parse_value_eq_ok_iff.mpr described]
  simp only [built, told]

theorem filter_of_violations (described : x.DescribesRequest r)
    (found : violations s.matrix defaultDepth r.entity r.filters r.sort ≠ []) :
    filter s x = .refused (.invalidFilter
      ((violations s.matrix defaultDepth r.entity r.filters r.sort).map (·.message))) := by
  have invalid : Query.build s.matrix s.sizes s.now r =
      .error (.invalid (violations s.matrix defaultDepth r.entity r.filters r.sort)) := by
    unfold Query.build
    split
    · rename_i first others same
      rw [same]
    · rename_i none
      exact absurd none found
  exact filter_of_build_error described invalid

theorem filter_of_compile_error {e : CompileFault} (described : x.DescribesRequest r)
    (accepted : violations s.matrix defaultDepth r.entity r.filters r.sort = [])
    (failed : r.filters.compile s.now defaultDepth = .error e) : filter s x = .failed := by
  have unbuilt : Query.build s.matrix s.sizes s.now r = .error (.filter e) := by
    rw [Query.build, accepted, failed]
    rfl
  obtain ⟨-, tree, -⟩ := violations_eq_nil_iff.mp accepted
  obtain ⟨fault, rfl, -⟩ := Group.leavesCalendar_of_compile_error tree failed
  exact filter_of_build_error described unbuilt

theorem filter_of_compile_ok {p : Predicate} (described : x.DescribesRequest r)
    (accepted : violations s.matrix defaultDepth r.entity r.filters r.sort = [])
    (compiled : r.filters.compile s.now defaultDepth = .ok p) :
    ∃ query description, filter s x = .ok (queryJson query description) := by
  have given : ∃ v, Json.Term v r.search := by
    cases x with
    | obj entries => exact ⟨_, described.search⟩
    | _ => exact described.elim
  obtain ⟨v, given⟩ := given
  obtain ⟨term, isTerm⟩ := given.exists_searchTerm
  obtain ⟨-, tree, -⟩ := violations_eq_nil_iff.mp accepted
  obtain ⟨description, told⟩ := Group.exists_description [] tree
  have built : ∃ query, Query.build s.matrix s.sizes s.now r = .ok query :=
    ⟨_, Query.build_eq_ok_iff.mpr ⟨accepted, p, term, compiled, isTerm, rfl⟩⟩
  obtain ⟨query, built⟩ := built
  exact ⟨query, description, filter_of_build_ok described built told⟩

/-- The service fails for a value exactly if it describes a request that breaks no rule
    and one of whose conditions leads to a date outside the calendar. To any other value
    it answers with a query, or it refuses the value with reasons. -/
theorem filter_answers (s : Setting) (x : Json) :
    (filter s x = .failed ↔ ∃ r, x.DescribesRequest r ∧
      violations s.matrix defaultDepth r.entity r.filters r.sort = [] ∧
      ∃ c ∈ r.filters.conditions, c.AtCalendarEnd s.now) ∧
    (filter s x ≠ .failed → (∃ query description, filter s x = .ok (queryJson query description)) ∨
      ∃ refusal, (refusal.message = "Malformed filter query" ∨ refusal.message = "Invalid filter query") ∧
        refusal.details ≠ [] ∧ filter s x = .refused refusal) := by
  by_cases described : ∃ r, x.DescribesRequest r
  · obtain ⟨r, described⟩ := described
    -- The three conditions of a failure are about this request, as the value describes no other.
    have only : ∀ other, x.DescribesRequest other → other = r := by
      intro other alsoDescribed
      have same := (Request.parse_value_eq_ok_iff.mpr alsoDescribed).symm.trans
        (Request.parse_value_eq_ok_iff.mpr described)
      exact Except.ok.inj same
    by_cases accepted : violations s.matrix defaultDepth r.entity r.filters r.sort = []
    · obtain ⟨-, tree, -⟩ := violations_eq_nil_iff.mp accepted
      cases compiled : r.filters.compile s.now defaultDepth with
      | error e =>
        have fails := filter_of_compile_error described accepted compiled
        have atEnd := (Group.exists_compile_error_iff tree).mp ⟨e, compiled⟩
        exact ⟨iff_of_true fails ⟨r, described, accepted, atEnd⟩, fun succeeds => absurd fails succeeds⟩
      | ok p =>
        obtain ⟨query, description, answer⟩ := filter_of_compile_ok described accepted compiled
        refine ⟨?_, fun _ => .inl ⟨query, description, answer⟩⟩
        rw [answer]
        refine iff_of_false (Response.ok_ne_failed _) ?_
        rintro ⟨other, alsoDescribed, -, atEnd⟩
        cases only other alsoDescribed
        obtain ⟨e, failed⟩ := (Group.exists_compile_error_iff tree).mpr atEnd
        exact absurd (compiled.symm.trans failed) nofun
    · have answer := filter_of_violations described accepted
      refine ⟨?_, fun _ => .inr ⟨_, .inr rfl, mt List.map_eq_nil_iff.mp accepted, answer⟩⟩
      rw [answer]
      refine iff_of_false (Response.refused_ne_failed _) ?_
      rintro ⟨other, alsoDescribed, alsoAccepted, -⟩
      cases only other alsoDescribed
      exact accepted alsoAccepted
  · obtain ⟨details, reasons, answer⟩ := filter_of_not_described (s := s) described
    refine ⟨?_, fun _ => .inr ⟨_, .inl rfl, reasons, answer⟩⟩
    rw [answer]
    refine iff_of_false (Response.refused_ne_failed _) ?_
    rintro ⟨r, isDescribed, -⟩
    exact described ⟨r, isDescribed⟩

/-- A request for the deals of the last day that has a date. -/
def dealsOfLastDay : Json :=
  .obj [("entity", .str "deals"),
    ("filters", .obj [("operator", .str "AND"),
      ("conditions", .arr [.obj [("field", .str "createdAt"), ("operator", .str "date_equals"),
        ("value", .str "9999-12-31")]])])]

/-- The last day is a date to the rules, and yet it is neither looked up nor refused. -/
theorem filter_fails_for_last_day :
    let s : Setting := ⟨.packaged, .standard, ⟨⟨⟨2024, 6, 15, by decide⟩, .midnight, some .utc⟩, none⟩⟩
    filter s dealsOfLastDay = .failed ∧
      ¬ ((∃ answer, filter s dealsOfLastDay = .ok answer) ∨
        ∃ refusal, filter s dealsOfLastDay = .refused refusal) := by
  intro s
  have fails : filter s dealsOfLastDay = .failed := rfl
  refine ⟨fails, ?_⟩
  rw [fails]
  rintro (⟨answer, same⟩ | ⟨refusal, same⟩)
  · exact Response.ok_ne_failed answer same.symm
  · exact Response.refused_ne_failed refusal same.symm

end Service

end Criteria
