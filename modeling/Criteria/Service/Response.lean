import Criteria.Calendar.Iso.Writer
import Criteria.Predicate.Basic
import Criteria.Rejection

/-!
Answers of the service: a status and a content. Predicates are shown as JSON, their
moments as texts with `Z` for universal time; a number that is not finite is shown as
null.
-/
namespace Criteria.Service

open Calendar (Moment)

/-- What an answer holds. -/
inductive Content where
  | json (x : Json)
  | text (s : String)
deriving DecidableEq, Repr

/-- An answer. -/
structure Response where
  status : Nat
  content : Content
deriving DecidableEq, Repr

namespace Response

/-- The answer that all went well. -/
def ok (x : Json) : Response := ⟨200, .json x⟩

/-- An answer that tells what is wrong. -/
def wrong (status : Nat) (detail : Json) : Response := ⟨status, .json (.obj [("detail", detail)])⟩

/-- The answer for what nothing was found at. -/
def notFound : Response := wrong 404 (.str "Not Found")

/-- The answer for a method that a place does not take. -/
def methodNotAllowed : Response := wrong 405 (.str "Method Not Allowed")

/-- The answer when the service itself failed. -/
def failed : Response := ⟨500, .text "Internal Server Error"⟩

/-- The answer for a body that could not be read for another reason than its form. -/
def unreadable : Response := wrong 400 (.str "There was an error parsing the body")

/-- The answer that a request is refused. -/
def refused (r : Rejection) : Response :=
  wrong 400 (.obj [("message", .str r.message), ("errors", .arr (r.details.map .str))])

/-- The answer for a body that has a fault. -/
def invalidBody (faultType : String) (place : List Json) (message : String) (input : Json)
    (more : List (String × Json)) : Response :=
  wrong 422 (.arr [.obj ([("type", .str faultType), ("loc", .arr (.str "body" :: place)),
    ("msg", .str message), ("input", input)] ++ more)])

end Response

/-- The seconds of an offset, rounded to the nearest, a half away from zero. -/
def offsetSeconds (micros : Int) : Int :=
  let n : Int := (micros.natAbs + 500000) / 1000000
  if micros < 0 then -n else n

/-- An offset as an answer shows it: `Z` for none, or else hours and whole minutes. -/
def offsetText (micros : Int) : List Char :=
  let seconds := offsetSeconds micros
  if seconds = 0 then ['Z']
  else
    let minutes := seconds.natAbs / 60
    Calendar.Iso.signChar seconds ::
      Calendar.Iso.twoDigits (minutes / 60) ++ ':' :: Calendar.Iso.twoDigits (minutes % 60)

/-- A moment as an answer shows it. -/
def momentText (m : Moment) : String :=
  String.ofList (Calendar.Iso.wallChars m ++
    match m.offset with
    | some o => offsetText o.micros
    | none => [])

/-- A floating-point number as an answer shows it. -/
def floatJson (x : Binary64) : Json :=
  match x.view with
  | .finite _ _ _ => .float x
  | _ => .null

mutual

/-- A predicate as an answer shows it. -/
def predicateJson : Predicate → Json
  | .null => .null
  | .bool b => .bool b
  | .int n => .int n
  | .float x => floatJson x
  | .text s => .str s
  | .moment m => .str (momentText m)
  | .list items => .arr (predicateItems items)
  | .object entries => .obj (predicateEntries entries)

/-- Predicates as an answer shows them. -/
def predicateItems : List Predicate → List Json
  | [] => []
  | p :: rest => predicateJson p :: predicateItems rest

/-- Named predicates as an answer shows them. -/
def predicateEntries : List (String × Predicate) → List (String × Json)
  | [] => []
  | (k, p) :: rest => (k, predicateJson p) :: predicateEntries rest

end

end Criteria.Service
