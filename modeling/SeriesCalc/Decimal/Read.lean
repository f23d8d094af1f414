import SeriesCalc.Decimal.Shortest

/-!
# Reading decimals

`Scientific.toFloat` gives the binary64 value nearest to `digits · 10^exp`, a tie going to
the even significand, as reading a decimal literal must. The arithmetic is exact: the
quotient is formed on `Nat` at the precision of the result, and the remainder decides the
rounding. Magnitudes far above the largest float read as infinity, far below the smallest
subnormal as zero.
-/

namespace SeriesCalc.Decimal

/-- The float nearest to `num / den` (both positive), ties to even. -/
def nearestRatio (num den : Nat) : Float :=
  let l : Int := (Nat.log2 num : Int) - (Nat.log2 den : Int)
  let split := fun (e : Int) =>
    if e ≥ 0 then (num, den * Nat.pow 2 e.toNat) else (num * Nat.pow 2 (-e).toNat, den)
  let e := l - 52
  let e := if (split e).1 / (split e).2 < Nat.pow 2 52 then e - 1 else e
  let e := max e (-1074)
  let (n, d) := split e
  let q := n / d
  let r := n % d
  let q := if 2 * r > d || (2 * r == d && q % 2 == 1) then q + 1 else q
  let (q, e) := if q == Nat.pow 2 53 then (Nat.pow 2 52, e + 1) else (q, e)
  if e > 971 then 1 / 0 else Float.scaleB q.toFloat e

/-- The float nearest to the decimal, with a sign. -/
def Scientific.toFloat (negative : Bool) (s : Scientific) : Float :=
  let magnitude : Float :=
    if s.digits == 0 then 0
    else
      let size : Int := s.exp + digitCount s.digits
      if size > 311 then 1 / 0
      else if size < -326 then 0
      else if s.exp ≥ 0 then nearestRatio (s.digits * Nat.pow 10 s.exp.toNat) 1
      else nearestRatio s.digits (Nat.pow 10 (-s.exp).toNat)
  if negative then -magnitude else magnitude

end SeriesCalc.Decimal
