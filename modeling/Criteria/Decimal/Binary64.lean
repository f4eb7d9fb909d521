import Criteria.Decimal.Power

/-!
Binary floating-point numbers of 64 bits. A `Binary64` is its bit pattern, so two
of them are equal exactly if they are the same number written the same way: the
two zeros differ, and nothing is compared by its numerical value. `view` reads a
pattern as what it stands for, `m · 2 ^ q` for a finite number.
-/
namespace Criteria

/-- A binary floating-point number, by its bit pattern. -/
structure Binary64 where
  bits : UInt64
deriving DecidableEq, Repr

namespace Binary64

/-- What a bit pattern stands for. -/
inductive View where
  | nan
  | infinite (negative : Bool)
  | finite (negative : Bool) (significand : Nat) (exponent : Int)
deriving DecidableEq, Repr

/-- The exponent field of an infinity. -/
def topExponent : Nat := 0x7FF

/-- The number that a bit pattern stands for. -/
def view (x : Binary64) : View :=
  let n := x.bits.toNat
  let negative := n / twoPow 63 == 1
  let exponent := n / twoPow 52 % twoPow 11
  let fraction := n % twoPow 52
  if exponent == topExponent then
    if fraction == 0 then .infinite negative else .nan
  else if exponent == 0 then .finite negative fraction (-1074)
  else .finite negative (twoPow 52 + fraction) (exponent - 1075)

/-- The number whose magnitude has the given bit pattern; patterns beyond infinity are infinite. -/
def ofMagnitude (negative : Bool) (magnitude : Nat) : Binary64 :=
  ⟨UInt64.ofNat ((if negative then twoPow 63 else 0) + min magnitude (topExponent * twoPow 52))⟩

/-- Not a number. -/
def nan : Binary64 := ⟨0x7FF8000000000000⟩

/-- Infinity of the given sign. -/
def infinity (negative : Bool) : Binary64 := ofMagnitude negative (topExponent * twoPow 52)

/-- Whether a number is a zero of either sign. -/
def isZero (x : Binary64) : Bool :=
  match x.view with
  | .finite _ m _ => m == 0
  | _ => false

/-- The integer part of a finite number, toward zero. -/
def truncate? (x : Binary64) : Option Int :=
  match x.view with
  | .finite negative m q =>
    let magnitude := if 0 ≤ q then m * twoPow q.toNat else m / twoPow (-q).toNat
    some (if negative then -(magnitude : Int) else magnitude)
  | _ => none

/-- Whether a number is finite and has no fractional part. -/
def isIntegral (x : Binary64) : Bool :=
  match x.view with
  | .finite _ m q => 0 ≤ q || m % twoPow (-q).toNat == 0
  | _ => false

/-- Whether a number is smaller than a positive integer; false of what is not a number. -/
def ltNat (x : Binary64) (n : Nat) : Bool :=
  match x.view with
  | .nan => false
  | .infinite negative => negative
  | .finite true _ _ => 0 < n
  | .finite false m q => if 0 ≤ q then m * twoPow q.toNat < n else m < n * twoPow (-q).toNat

end Binary64

end Criteria
