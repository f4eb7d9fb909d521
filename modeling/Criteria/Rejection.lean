/-!
Refusals that are told to the one who asked: a summary and all that was found wrong.
-/
namespace Criteria

/-- A refusal. -/
structure Rejection where
  message : String
  details : List String
deriving DecidableEq, Repr

/-- The refusal of a filter that breaks a rule. -/
def Rejection.invalidFilter (details : List String) : Rejection := ⟨"Invalid filter query", details⟩

end Criteria
