import Criteria.Schema.Basic

/-!
The published form of the shapes: a JSON Schema document for requests and one for
groups. Groups and conditions are defined once and referred to; all other shapes are
written where they are used.
-/
namespace Criteria.Schema

/-- A list of texts as JSON. -/
def textList (texts : List String) : Json := .arr (texts.map .str)

/-- A keyword as an entry of a document, the shapes that it names written by `inner`. -/
def Keyword.document (inner : Shape → Json) : Keyword → String × Json
  | kinds [k] => ("type", .str k.name)
  | kinds allowed => ("type", textList (allowed.map (·.name)))
  | closed => ("additionalProperties", .bool false)
  | entries shapes => ("properties", .obj (shapes.map fun e => (e.1, inner e.2)))
  | required names => ("required", textList names)
  | items shape => ("items", inner shape)
  | nonEmpty => ("minLength", .int 1)
  | choice texts => ("enum", textList texts)
  | minimum n => ("minimum", .int n)

/-- The entries of the document of a shape. -/
def Shape.document (inner : Shape → Json) (s : Shape) : List (String × Json) :=
  s.keywords.map (·.document inner)

/-- A reference to a definition. -/
def reference (name : String) : List (String × Json) := [("$ref", .str ("#/$defs/" ++ name))]

/-- A shape where it is used, unless that is inside of two others. -/
def Shape.used (inner : Shape → Json) : Shape → Json
  | group => .obj (reference "FilterGroup")
  | condition => .obj (reference "FilterCondition")
  | s => .obj (s.document inner)

/-- A shape as it stands in a document. No shape but a reference lies deeper than this goes. -/
def Shape.usedTwice : Shape → Json := Shape.used (Shape.used fun _ => .null)

/-- The dialect of the documents. -/
def dialect : String × Json := ("$schema", .str "https://json-schema.org/draft/2020-12/schema")

/-- The definitions of the documents. -/
def definitions : String × Json :=
  ("$defs", .obj [("FilterCondition", .obj (Shape.condition.document Shape.usedTwice)),
    ("FilterGroup", .obj (Shape.group.document Shape.usedTwice))])

/-- The document for requests. -/
def requestDocument : Json :=
  .obj ([dialect, ("$id", .str "https://crm-filters.local/filter-query.schema.json"),
    ("title", .str "Advanced Filter Query"), definitions] ++ Shape.request.document Shape.usedTwice)

/-- The document for groups. -/
def groupDocument : Json := .obj ([dialect, definitions] ++ reference "FilterGroup")

end Criteria.Schema
