/-!
# Numbers that stand for counts

Indices, category codes and sizes arrive as binary64 numbers. Such a number is accepted as a
count when it is whole: finite, with no fractional part. Read off its encoding
(`Float.toModel.unpack`), a whole number is a zero, or `m · 2^e` with `e ≥ 0` or with `2^-e`
dividing `m`; for a finite `x` this is exactly `floor x == x`.

`Float.toCount` converts as an unsigned 64-bit conversion does: it truncates towards zero,
gives 0 for NaN and negative numbers, and saturates at `2^64 - 1`.
-/

namespace Float

/-- A finite whole number. -/
def isWhole (x : Float) : Bool :=
  match x.toModel.unpack with
  | .zero _ => true
  | .finite _ m e _ => decide (0 ≤ e) || m % Nat.pow 2 (-e).toNat == 0
  | _ => false

/-- The number as a count: truncated, NaN and negatives give 0, large values saturate. -/
def toCount (x : Float) : Nat := x.toUInt64.toNat

end Float
