import Criteria.Matrix.Document
import Criteria.Yaml.Reader

/-!
Field files. A file whose name ends in `.yaml` or `.yml` is in the block format, and
any other is in JSON. Lines may end in a line feed, a carriage return, or both.
-/
namespace Criteria.Matrix

/-- A field file: not there, or its content, in the block format or in JSON. -/
inductive FieldFile where
  | missing
  | found (blocks : Bool) (content : String)
deriving DecidableEq, Repr

/-- The letters of a text in lower case, as far as they are ASCII. -/
def lower (s : String) : String := String.ofList (s.toList.map Char.toLower)

/-- The part of a file's name from its last dot on. -/
def extension (name : String) : String :=
  let rest := name.toList.reverse
  if rest.contains '.' then String.ofList ('.' :: (rest.takeWhile (· != '.')).reverse) else ""

/-- Whether a file of the given name is in the block format. -/
def isBlockFile (name : String) : Bool := [".yaml", ".yml"].contains (lower (extension name))

/-- Characters with a line feed for every end of a line. -/
def lineFeeds : List Char → List Char
  | [] => []
  | '\r' :: '\n' :: rest => '\n' :: lineFeeds rest
  | '\r' :: rest => '\n' :: lineFeeds rest
  | c :: rest => c :: lineFeeds rest

/-- What the content of a field file says. -/
def document (blocks : Bool) (content : String) : Except LoadFault Document :=
  let text := String.ofList (lineFeeds content.toList)
  if blocks then
    match Yaml.read? text with
    | some x => .ok x
    | none => .error .malformedBlocks
  else match Json.read text with
    | .ok x => .ok (.ofJson x)
    | .error fault => .error (.malformedJson fault)

/-- The matrix of a field file. -/
def load (path : String) : FieldFile → Except LoadFault Matrix
  | .missing => .error (.notFound path)
  | .found blocks content => do ofDocument path (← document blocks content)

end Criteria.Matrix
