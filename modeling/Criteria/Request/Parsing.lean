import Criteria.Filter.Depth
import Criteria.Json.Encoding
import Criteria.Rejection
import Criteria.Request.Decoding
import Criteria.Request.Nesting
import Criteria.Schema.Problem

/-!
Requests and groups from what was sent: a value, a text or bytes. First the depth is
checked, then the shape, and then the value is taken as a request. `Group.parse` and
`Request.parse` leave out the check of the shape if they are told to.
-/
namespace Criteria

/-- What was sent. -/
inductive Payload where
  | value (x : Json)
  | text (s : String)
  | octets (bs : List Text.Octet)
deriving DecidableEq, Repr

/-- A value that was sent; one that is a text is taken as the text of a value. -/
def Payload.ofJson : Json → Payload
  | .str s => text s
  | x => value x

/-- What is looked for in what was sent. -/
inductive Subject where
  | group
  | request
deriving DecidableEq, Repr

namespace Subject

/-- The refusal of a malformed subject. -/
def malformedMessage : Subject → String
  | group => "Malformed filter group"
  | request => "Malformed filter query"

/-- The shape of a subject. -/
def shape : Subject → Schema.Shape
  | group => .group
  | request => .request

/-- The number of levels of the groups of a value. -/
def levels : Subject → Json → Nat
  | group, x => x.levels
  | request, .obj entries => (Json.getOrNull "filters" entries).levels
  | request, _ => Json.null.levels

end Subject

/-- Why what was sent is no subject. -/
inductive ParseFault where
  /-- The bytes are no text. -/
  | undecodable
  | text (fault : Json.ReadFault)
  | tooDeep (subject : Subject)
  | shape (subject : Subject) (problems : List Schema.Problem)
  | content (fault : DecodeFault)
deriving DecidableEq, Repr

/-- The refusal for a fault, if it is one that is told with its details. -/
def ParseFault.rejection? : ParseFault → Option Rejection
  | text (.malformed fault position line column) =>
    some ⟨"Malformed JSON body", [(Json.ReadFault.malformed fault position line column).message]⟩
  | tooDeep subject => some ⟨subject.malformedMessage, [tooDeepMessage defaultDepth]⟩
  | shape subject problems => some ⟨subject.malformedMessage, problems.map (·.message)⟩
  | undecodable | text (.tooLong _) | content _ => none

/-- The value that was sent. -/
def Payload.load : Payload → Except ParseFault Json
  | value x => .ok x
  | text s => (Json.read s).mapError .text
  | octets bs =>
    match Json.decodeBytes bs with
    | none => .error .undecodable
    | some cs => (Json.readChars cs).mapError .text

/-- Whether a value is nested deeper than is taken. -/
def isTooDeep (limit : Int) (subject : Subject) (x : Json) : Bool := limit < subject.levels x

/-- A value as it is taken to be a subject: not too deep and, if that is checked, of its shape. -/
def Subject.admit (checked : Bool) (subject : Subject) (x : Json) : Except ParseFault Unit :=
  if isTooDeep defaultDepth subject x then .error (.tooDeep subject)
  else if checked then
    match Schema.report subject.shape x with
    | [] => .ok ()
    | problems => .error (.shape subject problems)
  else .ok ()

/-- The group that was sent. -/
def Group.parse (checked : Bool) (payload : Payload) : Except ParseFault Group := do
  let x ← payload.load
  Subject.group.admit checked x
  (Group.ofJson x).mapError .content

/-- The request that was sent. -/
def Request.parse (checked : Bool) (payload : Payload) : Except ParseFault Request := do
  let x ← payload.load
  Subject.request.admit checked x
  (Request.ofJson x).mapError .content

end Criteria
