import Criteria.Query.Page
import Criteria.Query.Search
import Criteria.Violation.Detection

/-!
Queries. A request that breaks no rule becomes a query: the predicate of its rows, their
order, and the slice to show. The predicate leaves out deleted rows whatever the filter
says, and asks for the filter and for the search.
-/
namespace Criteria

open Calendar (Now)

/-- What is asked of the store. -/
structure Query where
  entity : String
  predicate : Predicate
  order : Option Predicate
  slice : Option Slice
deriving Repr

/-- Why a request becomes no query. -/
inductive QueryFault where
  | invalid (violations : List Violation)
  | filter (fault : CompileFault)
  /-- The term to look for is no text. -/
  | badSearch (search : Json)
deriving DecidableEq, Repr

/-- The refusal for a fault, if it is one that is told with its details. -/
def QueryFault.rejection? : QueryFault → Option Rejection
  | invalid violations => some (.invalidFilter (violations.map (·.message)))
  | filter fault => fault.rejection?
  | badSearch _ => none

namespace Query

/-- The predicate that a row is not deleted. -/
def notDeleted (m : Matrix) : Predicate := .object [(m.softDeleteField, .bool false)]

/-- The parts of the predicate of a query. A filter that always holds is left out. -/
def parts (m : Matrix) (filter : Predicate) (search : Option Predicate) : List Predicate :=
  notDeleted m :: (if filter.isAlways then [] else [filter]) ++ search.toList

/-- The predicate that asks for all of some parts. -/
def conjunction : List Predicate → Predicate
  | [p] => p
  | parts => .object [(Connective.all.name, .list parts)]

/-- The query of a request at the given present moment. -/
def build (m : Matrix) (sizes : PageSizes) (now : Now) (r : Request) : Except QueryFault Query :=
  match violations m defaultDepth r.entity r.filters r.sort with
  | v :: others => .error (.invalid (v :: others))
  | [] => do
    let filter ← (r.filters.compile now defaultDepth).mapError .filter
    match searchTerm? r.search with
    | none => throw (.badSearch r.search)
    | some term =>
      return {
        entity := r.entity
        predicate := conjunction (parts m filter (searchIn (m.searchFields r.entity) term))
        order := r.sort.bind (·.order)
        slice := r.pagination.map (·.slice sizes) }

end Query

end Criteria
