import Criteria.Decimal.Binary64

/-!
Reading a decimal number. `Binary64.ofDecimal` takes digits and a power of ten to
the floating-point number nearest to them, and to the even one of two that are
equally near. The arithmetic is exact, on natural numbers.
-/
namespace Criteria.Binary64

/-- The quotient rounded to the nearest natural number, a half to the even neighbour. -/
def roundDiv (num den : Nat) : Nat :=
  let q := num / den
  let r := num % den
  if den < 2 * r || (2 * r == den && q % 2 == 1) then q + 1 else q

/-- The exponent of the largest power of two that is at most `num / den`, for positive operands. -/
def floorLog2 (num den : Nat) : Int :=
  let e : Int := (Nat.log2 num : Int) - Nat.log2 den
  let atLeast := if 0 ≤ e then den * twoPow e.toNat ≤ num else den ≤ num * twoPow (-e).toNat
  if atLeast then e else e - 1

/-- The bit pattern of the magnitude nearest to the positive fraction `num / den`. -/
def nearestMagnitude (num den : Nat) : Nat :=
  let q := max (floorLog2 num den - 52) (-1074)
  let m := if 0 ≤ q then roundDiv num (den * twoPow q.toNat) else roundDiv (num * twoPow (-q).toNat) den
  (q + 1074).toNat * twoPow 52 + m

/-- The number of decimal digits of a natural number. -/
def digitCount (n : Nat) : Nat := (Nat.toDigits 10 n).length

/-- The number nearest to `digits · 10 ^ exponent`. Exponents far outside the range of the format
are settled by their size alone. -/
def ofDecimal (negative : Bool) (digits : Nat) (exponent : Int) : Binary64 :=
  let top := digitCount digits + exponent
  if digits == 0 || top < -400 then ofMagnitude negative 0
  else if 400 < top then infinity negative
  else if 0 ≤ exponent then
    ofMagnitude negative (nearestMagnitude (digits * tenPow exponent.toNat) 1)
  else ofMagnitude negative (nearestMagnitude digits (tenPow (-exponent).toNat))

end Criteria.Binary64
