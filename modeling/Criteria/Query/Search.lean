import Criteria.Filter.Tree
import Criteria.Matrix.Basic
import Criteria.Predicate.Compilation
import Criteria.Request.Basic
import Criteria.Text.Blank

/-!
Searching and sorting. A search asks that one of the search fields of the entity hold
the term, whatever its case; a blank term asks nothing. A sort key is written under the
path of its field.
-/
namespace Criteria

/-- The predicate that a field holds a term. -/
def containsTerm (term field : String) : Predicate :=
  .nest (fieldPath field) (.object [("contains", .text term), Predicate.insensitive])

/-- The predicate that one of some fields holds a term, if there is a term to look for and a field to
look through. -/
def searchIn (fields : List String) (term : String) : Option Predicate :=
  if term = "" ∨ fields = [] then none
  else some (.object [(Connective.any.name, .list (fields.map (containsTerm term)))])

/-- The term of a search, blanks around it aside. What counts as none given is a blank term; nothing
else but a text is one. -/
def searchTerm? (search : Json) : Option String :=
  match search with
  | .str s => some (Text.trim s)
  | x => if x.isVacant then some "" else none

/-- The order of a sort key; a key without a field asks for none. -/
def SortKey.order (s : SortKey) : Option Predicate :=
  if s.field = "" then none else some (.nest (fieldPath s.field) (.text s.direction))

end Criteria
