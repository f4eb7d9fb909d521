import Criteria.Text.Integer

/-!
Where the service listens: a host and a port, each given or taken by default.
-/
namespace Criteria.Service

/-- A host and a port. -/
structure Address where
  host : String
  port : Int
deriving DecidableEq, Repr

/-- The address for a host and the text of a port, as far as they are given. -/
def Address.of (host port : Option String) : Except Text.IntegerFault Address := do
  return ⟨host.getD "127.0.0.1", ← Text.readInteger (port.getD "8000")⟩

end Criteria.Service
