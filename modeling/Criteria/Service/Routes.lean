import Criteria.Filter.Description
import Criteria.Query.Basic
import Criteria.Service.Call
import Criteria.Service.Response

/-!
The service. It takes filter requests, tells a filter builder what may be asked, and
tells whether it is up. `respond` finds the place of a call; a path with slashes at its
end leads to the place without them.

An answer is a value, and writing it down is left to the server. A page number of as many
digits as an integer may have (`Text.digitLimit`) can make the number of rows to skip
longer than that. A server that keeps the limit when it writes then fails after the answer
was given; the status here is the one that was given.
-/
namespace Criteria.Service

open Calendar (Now RelativeWindow)

/-- What the service works with: a matrix, the page sizes and the present moment. -/
structure Setting where
  matrix : Matrix
  sizes : PageSizes
  now : Now

/-- An object with an entry for each row of a table. -/
def tableJson {α : Type} (f : α → Json) (t : Table α) : Json := .obj (t.map fun e => (e.1, f e.2))

/-- An object with an entry for each entity of a table. -/
def entityTableJson {α : Type} (f : α → Json) (t : EntityTable α) : Json :=
  .obj (t.map fun e => (e.1.display, f e.2))

/-- A list of texts. -/
def textsJson (texts : List String) : Json := .arr (texts.map .str)

/-- A number if there is one, of whatever length it is. -/
def numberJson (n : Option Int) : Json := (n.map .int).getD .null

/-- A query, with the words of its filter. -/
def queryJson (q : Query) (description : String) : Json :=
  .obj [("entity", .str q.entity), ("where", predicateJson q.predicate),
    ("orderBy", (q.order.map predicateJson).getD .null), ("skip", numberJson (q.slice.map (·.skip))),
    ("take", numberJson (q.slice.map (·.take))), ("description", .str description)]

/-- The answer for a request that becomes no query. A filter that is refused only when it is compiled
has passed the rules by mistake. -/
def queryFailed (fault : QueryFault) : Response :=
  match fault.rejection? with
  | some r => .refused r
  | none =>
    match fault with
    | .filter (.unknownOperator _) | .filter (.unknownWindow _) | .filter (.notPair _ _) =>
      .wrong 500 (.str "Filter compilation failed")
    | _ => .failed

/-- The answer to a filter request. -/
def filter (s : Setting) (x : Json) : Response :=
  match Request.parse true (.value x) with
  | .error fault =>
    match fault.rejection? with
    | some r => .refused r
    | none => .failed
  | .ok request =>
    match Query.build s.matrix s.sizes s.now request with
    | .error fault => queryFailed fault
    | .ok query =>
      match request.filters.describe? [] with
      | some description => .ok (queryJson query description)
      | none => .failed

/-- The fault of a body that is not there. -/
def missingBody : Response := .invalidBody "missing" [] "Field required" .null []

mutual

/-- Whether all numbers in a value are finite. -/
def isFinite : Json → Bool
  | .float x => x.truncate?.isSome
  | .arr items => areFinite items
  | .obj entries => entriesAreFinite entries
  | _ => true

/-- Whether all numbers in several values are finite. -/
def areFinite : List Json → Bool
  | [] => true
  | x :: rest => isFinite x && areFinite rest

/-- Whether all numbers in several entries are finite. -/
def entriesAreFinite : List (String × Json) → Bool
  | [] => true
  | (_, x) :: rest => isFinite x && entriesAreFinite rest

end

/-- The answer to a filter request in a body. Only a body without any bytes is missing; one that is not
an object, null among them, is shown again, which its numbers may prevent. -/
def filterBody (s : Setting) (body : Payload) : Response :=
  match body with
  | .text "" | .octets [] => missingBody
  | _ =>
    match body.load with
    | .ok (.obj entries) => filter s (.obj entries)
    | .ok x =>
      if isFinite x then .invalidBody "dict_type" [] "Input should be a valid dictionary" x []
      else .failed
    | .error (.text (.malformed fault position _ _)) =>
      .invalidBody "json_invalid" [.int position] "JSON decode error" (.obj [])
        [("ctx", .obj [("error", .str fault.message)])]
    | .error _ => .unreadable

/-- The answer that an entity is unknown. -/
def unknownEntity (entity : String) : Response :=
  .refused ⟨"Invalid entity type", ["Unknown entity: " ++ entity]⟩

/-- What may be asked of some entities. -/
def configJson (s : Setting) (entity? : Option String) : Json :=
  let names : List Scalar := match entity? with
    | none | some "" => s.matrix.entities
    | some entity => [entity]
  .obj [
    ("config", entityTableJson (tableJson textsJson) (s.matrix.config (entity?.map .text))),
    ("metadata", entityTableJson (tableJson textsJson) (names.map fun e => (e, s.matrix.metadataOf e))),
    ("searchFields", entityTableJson textsJson (names.map fun e => (e, s.matrix.searchFields e))),
    ("operators", .obj (FieldType.all.map fun t => (t.name, textsJson (t.operators.map (·.name))))),
    ("relativeDateOptions", textsJson (RelativeWindow.all.map (·.name))),
    ("maxPageSize", .int s.sizes.most)]

/-- The answer to the question what may be asked, of one entity or of all. -/
def config (s : Setting) (entity? : Option String) : Response :=
  match entity? with
  | some entity => if s.matrix.hasEntity entity then .ok (configJson s entity?) else unknownEntity entity
  | none => .ok (configJson s none)

/-- The answer to the question whether the service is up. -/
def health (s : Setting) : Response :=
  .ok (.obj [("ok", .bool true), ("entities", .arr (s.matrix.entities.map Scalar.toJson))])

/-- The places of the service. -/
inductive Place where
  | health
  | filter
  | config
deriving DecidableEq, Repr

namespace Place

/-- The path of a place. -/
def path : Place → String
  | health => "/healthz"
  | filter => "/filter"
  | config => "/filter/config"

/-- The method that a place takes. -/
def method : Place → String
  | health | config => "GET"
  | filter => "POST"

/-- The place of a path, slashes at its end aside. -/
def ofPath? (path : String) : Option Place :=
  let trimmed := String.ofList (path.toList.reverse.dropWhile (· == '/')).reverse
  [health, filter, config].find? (·.path == trimmed)

end Place

/-- The answer of a place to a call. Of several values of a parameter the last counts. -/
def respondAt (s : Setting) (call : Call) (place : Place) : Response :=
  if call.method != place.method then .methodNotAllowed
  else match place with
    | .health => health s
    | .filter => filterBody s call.body
    | .config => config s (call.parameters.reverse.lookup "entity")

/-- The answer to a call. One that asks for the head of an answer gets no content. -/
def respond (s : Setting) (call : Call) : Response :=
  let answer := ((Place.ofPath? call.path).map (respondAt s call)).getD .notFound
  if call.method == "HEAD" then { answer with content := .text "" } else answer

end Criteria.Service
