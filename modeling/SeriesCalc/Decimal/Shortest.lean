/-!
# Shortest decimal digits of a binary64 value

A finite nonzero `Float` is `mant · 2^exp`. Every real inside its rounding interval reads back
as the same float; the ends belong to the interval exactly when `mant` is even (reading rounds
a tie to the even significand).

`Binary.shortest` returns, among the decimals with the fewest significant digits that lie in
that interval, the one nearest the value; of two equally near ones it takes the larger. All
arithmetic is exact, on `Nat`.

* `Binary.ofFloat`: sign and exact magnitude of a finite float, `none` for zero.
* `Binary.shortest`: the digits and decimal exponent, without trailing zeros.
-/

namespace SeriesCalc.Decimal

/-- A positive exact binary value `mant · 2^exp`. At the bottom of a binade (`narrowBelow`)
the neighbour below is half as far as the one above, so the interval is narrower there. -/
structure Binary where
  mant : Nat
  exp : Int
  narrowBelow : Bool
deriving Repr, DecidableEq

/-- A decimal `digits · 10^exp`. -/
structure Scientific where
  digits : Nat
  exp : Int
deriving Repr, DecidableEq

/-- Compare `x · 2^a · 10^b` with `y · 2^c · 10^d` exactly. -/
def cmpScaled (x : Nat) (a b : Int) (y : Nat) (c d : Int) : Ordering :=
  compare (x * Nat.pow 2 (a - c).toNat * Nat.pow 10 (b - d).toNat) (y * Nat.pow 2 (c - a).toNat * Nat.pow 10 (d - b).toNat)

/-- Number of decimal digits of a positive number (`1` for `0`). -/
def digitCount (n : Nat) : Nat :=
  (Nat.toDigits 10 n).length

/-- Drop trailing decimal zeros, raising the exponent to keep the value. -/
def Scientific.trim (s : Scientific) : Scientific :=
  if h : s.digits ≠ 0 ∧ s.digits % 10 = 0 then
    Scientific.trim ⟨s.digits / 10, s.exp + 1⟩
  else s
termination_by s.digits
decreasing_by exact Nat.div_lt_self (Nat.pos_of_ne_zero h.1) (by decide)

namespace Binary

/-- Sign and magnitude of a finite float; the magnitude is `none` for a zero. -/
def ofFloat (x : Float) : Bool × Option Binary :=
  let bits : Nat := x.toBits.toNat
  let negative : Bool := bits / Nat.pow 2 63 % 2 == 1
  let biased : Nat := bits / Nat.pow 2 52 % 2048
  let fraction : Nat := bits % Nat.pow 2 52
  if biased == 0 then
    (negative, if fraction == 0 then none else some ⟨fraction, -1074, false⟩)
  else
    (negative, some ⟨fraction + Nat.pow 2 52, Int.ofNat biased - 1075, fraction == 0 && biased > 1⟩)

/-- Whether `10^k ≤ v`. -/
def reaches (b : Binary) (k : Int) : Bool := cmpScaled b.mant b.exp 0 1 0 k != .lt

/-- `⌊log₁₀ v⌋` of the value. The estimate `⌊e₂ · 78913 / 2^18⌋` from the binary exponent
`e₂ = ⌊log₂ v⌋` is within one of it for every float, and one exact comparison on each side
settles which. -/
def leadExponent (b : Binary) : Int :=
  let e2 : Int := (Nat.log2 b.mant : Int) + b.exp
  let k := e2 * 78913 / 262144
  if !b.reaches k then k - 1
  else if b.reaches (k + 1) then k + 1
  else k

/-- `⌊v / 10^k⌋`. -/
def floorAt (b : Binary) (k : Int) : Nat :=
  b.mant * Nat.pow 2 b.exp.toNat * Nat.pow 10 (-k).toNat / (Nat.pow 2 (-b.exp).toNat * Nat.pow 10 k.toNat)

/-- Whether `d · 10^k` lies in the rounding interval. The interval is
`[4m - δ, 4m + 2] · 2^(e-2)` with `δ = 1` at the bottom of a binade and `2` elsewhere. -/
def admits (b : Binary) (d : Nat) (k : Int) : Bool :=
  let low := 4 * b.mant - (if b.narrowBelow then 1 else 2)
  let high := 4 * b.mant + 2
  let closed := b.mant % 2 == 0
  let aboveLow := match cmpScaled d 0 k low (b.exp - 2) 0 with
    | .gt => true
    | .eq => closed
    | .lt => false
  let belowHigh := match cmpScaled d 0 k high (b.exp - 2) 0 with
    | .lt => true
    | .eq => closed
    | .gt => false
  aboveLow && belowHigh

/-- The decimal of `n` significant digits nearest the value, if one lies in the interval. -/
def attempt (b : Binary) (lead : Int) (n : Nat) : Option Scientific :=
  let k := lead + 1 - n
  let d := b.floorAt k
  match b.admits d k, b.admits (d + 1) k with
  | true, true =>
    -- `d` is nearer when `2v < (2d + 1) · 10^k`
    if cmpScaled (2 * b.mant) b.exp 0 (2 * d + 1) 0 k == .lt then some ⟨d, k⟩
    else some ⟨d + 1, k⟩
  | true, false => some ⟨d, k⟩
  | false, true => some ⟨d + 1, k⟩
  | false, false => none

/-- The least `n` in `lo..hi` for which `attempt` succeeds, given that it succeeds at `hi`.
Success is monotone in `n` (a multiple of `10^k` is one of `10^(k-1)`, and the interval is
convex around the value), so halving the range finds it; `fuel` bounds the halvings. -/
def fewestDigits (b : Binary) (lead : Int) : Nat → Nat → Nat → Nat
  | 0, _, hi => hi
  | fuel + 1, lo, hi =>
    if lo ≥ hi then hi
    else
      let mid := (lo + hi) / 2
      if (b.attempt lead mid).isSome then fewestDigits b lead fuel lo mid
      else fewestDigits b lead fuel (mid + 1) hi

/-- The value as a whole number, when it is one below `2^53`: then its own digits are the
shortest, as no other multiple of ten lies within half a unit of it. -/
def whole? (b : Binary) : Option Nat :=
  let m := b.mant / Nat.pow 2 (-b.exp).toNat * Nat.pow 2 b.exp.toNat
  if m < Nat.pow 2 53 && (b.exp ≥ 0 || b.mant % Nat.pow 2 (-b.exp).toNat == 0) then some m else none

/-- Fewest significant digits that read back, nearest of those; trailing zeros removed.
Seventeen digits always suffice, so the last line is never reached by a finite float. -/
def shortest (b : Binary) : Scientific :=
  match b.whole? with
  | some m => Scientific.trim ⟨m, 0⟩
  | none =>
    let lead := b.leadExponent
    match b.attempt lead (b.fewestDigits lead 5 1 17) with
    | some s => s.trim
    | none => (Scientific.mk (b.floorAt (lead - 16)) (lead - 16)).trim

end Binary

end SeriesCalc.Decimal
