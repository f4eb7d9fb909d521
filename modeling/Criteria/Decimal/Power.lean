/-!
Powers of two and of ten.
-/
namespace Criteria

/-- A power of two. -/
def twoPow (n : Nat) : Nat := Nat.pow 2 n

/-- A power of ten. -/
def tenPow (n : Nat) : Nat := Nat.pow 10 n

end Criteria
