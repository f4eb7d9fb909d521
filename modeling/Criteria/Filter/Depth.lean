import Criteria.Filter.Tree

/-!
The depth that is taken of a filter.
-/
namespace Criteria

/-- The deepest nesting that is taken where nothing else is said. -/
def defaultDepth : Int := 10

/-- The words for a tree that is too deep. -/
def tooDeepMessage (limit : Int) : String :=
  "Filter groups are nested deeper than " ++ toString limit ++ " levels"

end Criteria
