import Criteria.Json.Text
import Criteria.Request.Parsing

/-!
Calls of the service. A call can be written as a JSON object with a method, a path,
parameters and a body; what is left out takes its default.
-/
namespace Criteria.Service

/-- A call: a method, a path, the parameters behind it, and a body. -/
structure Call where
  method : String
  path : String
  parameters : List (String × String)
  body : Payload

/-- The parameters in the entries of a call. -/
def Call.parametersOf (entries : List (String × Json)) : List (String × String) :=
  match entries.lookup "parameters" with
  | some (.obj parameters) => parameters.map fun e => (e.1, e.2.display)
  | _ => []

/-- The call that a value describes. -/
def Call.ofJson (x : Json) : Except DecodeFault Call := do
  let entries ← x.entries
  return {
    method := Json.textOr "GET" "method" entries
    path := Json.textOr "/" "path" entries
    parameters := parametersOf entries
    body := ((entries.lookup "body").map .value).getD (.octets []) }

end Criteria.Service
