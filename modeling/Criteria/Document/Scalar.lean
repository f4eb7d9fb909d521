import Criteria.Json.Text

/-!
Scalars: the values without parts. In a field file a scalar can also be a name, so that
an entity may be called by a number. As names, a truth value and the number that it
counts as are the same, and so are an integer and a floating-point number of one value.
-/
namespace Criteria

/-- A value without parts. -/
inductive Scalar where
  | null
  | bool (b : Bool)
  | int (n : Int)
  | float (x : Binary64)
  | text (s : String)
deriving DecidableEq, Repr, Inhabited

namespace Scalar

/-- A text where a scalar is wanted. -/
instance : Coe String Scalar := ⟨text⟩

/-- A scalar as a JSON value. -/
def toJson : Scalar → Json
  | null => .null
  | bool b => .bool b
  | int n => .int n
  | float x => .float x
  | text s => .str s

/-- A scalar with its kind visible. -/
def literal (x : Scalar) : String := x.toJson.literal

/-- A scalar as it reads in running text. -/
def display (x : Scalar) : String := x.toJson.display

/-- What a scalar is told apart by as a name: the integer that it counts as, or itself. -/
def asName : Scalar → Scalar
  | bool b => int (if b then 1 else 0)
  | float x => if x.isIntegral then (x.truncate?.map int).getD (float x) else float x
  | x => x

/-- Whether two scalars are the same name. -/
def isSameName (x y : Scalar) : Bool := x.asName == y.asName

theorem isSameName_iff {x y : Scalar} : x.isSameName y = true ↔ x.asName = y.asName := by
  simp [isSameName]

theorem isSameName_text {s t : String} : (text s).isSameName (text t) = true ↔ s = t := by
  simp [isSameName, asName]

/-- A truth value names what the number one or zero names. -/
theorem isSameName_bool (b : Bool) : (bool b).isSameName (int (if b then 1 else 0)) = true := by
  simp [isSameName, asName]

end Scalar

end Criteria
