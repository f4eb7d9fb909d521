import Criteria.Request.Basic

/-!
Pages of rows. A page request becomes the number of rows to skip and the number to
take: at least one and at most `PageSizes.most`.
-/
namespace Criteria

/-- The number of rows on a page where none is asked for, and the most that a page can have. -/
structure PageSizes where
  usual : Int
  most : Int
deriving DecidableEq, Repr

namespace PageSizes

/-- The page sizes where nothing else is said. -/
def standard : PageSizes := ⟨100, 1000⟩

/-- The number of rows on a page for the number that is asked for. -/
def cap (sizes : PageSizes) (limit : Int) : Int :=
  if limit ≤ 0 then min sizes.usual sizes.most else min limit sizes.most

end PageSizes

/-- Rows that follow one another: how many are skipped before them, and how many there are at most. -/
structure Slice where
  skip : Int
  take : Int
deriving DecidableEq, Repr

/-- The rows of a page. There is no page before the first. -/
def PageRequest.slice (sizes : PageSizes) (p : PageRequest) : Slice :=
  let take := sizes.cap p.limit
  ⟨(max 1 p.number - 1) * take, take⟩

end Criteria
