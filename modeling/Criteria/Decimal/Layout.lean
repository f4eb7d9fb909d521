import Criteria.Decimal.Shortest

/-!
The text of a floating-point number: its shortest digits, positional while the
leading digit stands for at least `10 ^ -4` and for less than `10 ^ 16`, and with
an exponent of at least two digits beyond that. A whole number keeps `.0` in
positional form.
-/
namespace Criteria.Binary64

/-- A sign for a number that may be negative. -/
def minus (negative : Bool) : String := if negative then "-" else ""

/-- Digits without the zeros at their end. -/
def withoutTrailingZeros (ds : List Char) : List Char := (ds.reverse.dropWhile (· == '0')).reverse

/-- The exponent part of a number: a sign and at least two digits. -/
def exponentText (e : Int) : String :=
  let ds := Nat.toDigits 10 e.natAbs
  "e" ++ (if e < 0 then "-" else "+") ++ String.ofList (if ds.length < 2 then '0' :: ds else ds)

/-- Digits in positional form, with the point after the first `point` of them. -/
def positional (ds : List Char) (point : Int) : String :=
  if point ≤ 0 then "0." ++ String.ofList (List.replicate (-point).toNat '0' ++ ds)
  else
    let n := point.toNat
    let whole := ds.take n ++ List.replicate (n - ds.length) '0'
    let part := ds.drop n
    String.ofList whole ++ "." ++ String.ofList (if part.isEmpty then ['0'] else part)

/-- Digits in exponent form, with the point after the first of them. -/
def scientific (ds : List Char) (e : Int) : String :=
  let part := ds.drop 1
  String.ofList (ds.take 1) ++ (if part.isEmpty then "" else "." ++ String.ofList part) ++ exponentText e

/-- The text of a positive finite number. -/
def magnitudeText (m : Nat) (q : Int) : String :=
  let (digits, step) := shortest m q
  let all := Nat.toDigits 10 digits
  let point := all.length + step
  let ds := withoutTrailingZeros all
  if -4 < point && point ≤ 16 then positional ds point else scientific ds (point - 1)

/-- The text of a number. -/
def text (x : Binary64) : String :=
  match x.view with
  | .nan => "nan"
  | .infinite negative => minus negative ++ "inf"
  | .finite negative m q => minus negative ++ if m == 0 then "0.0" else magnitudeText m q

end Criteria.Binary64
