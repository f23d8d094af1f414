import SeriesCalc.Expr.Op
import SeriesCalc.Value.Error
import SeriesCalc.Decimal.Shortest
import SeriesCalc.Value.Count

/-!
# The scalar kernel

Every elementwise operator comes down to `Kernel.apply`, so the rules on missing values live
in one place:

* an NA operand gives NA, except that
* `x * 0` and `0 * x` give 0 even for an NA `x`, unless the statement produces a matrix
  (`absorb` is false then),
* `||` gives 1 when either known operand is nonzero, `&&` gives 0 when either is zero.

Division or remainder by zero, a power that is not a number, and a power that overflows from
finite operands give NA together with a warning.

Remainders are exact (`Float.remainder`): the result is `x - n·y` for the integer `n` nearest
zero, computed on the operands' significands, with the sign of `x`.
-/

namespace Float

/-- The number truncated to a signed 64-bit integer; NaN gives 0, large values saturate. -/
def toInt64Sat (x : Float) : Int :=
  if x.isNaN then 0
  else if x ≥ 9223372036854775808 then 9223372036854775807
  else if x ≤ -9223372036854775808 then -9223372036854775808
  else if x ≥ 0 then (x.toUInt64.toNat : Int)
  else -((-x).toUInt64.toNat : Int)

/-- `2^e · n` as a float, exactly when representable. -/
def ofScaled (n : Nat) (e : Int) : Float := Float.scaleB n.toFloat e

/-- The remainder of truncated division, exact. -/
def remainder (x y : Float) : Float :=
  if x.isNaN || y.isNaN || x.isInf || y == 0 then 0 / 0
  else if y.isInf || x == 0 then x
  else
    match SeriesCalc.Decimal.Binary.ofFloat x, SeriesCalc.Decimal.Binary.ofFloat y with
    | (neg, some bx), (_, some byy) =>
      let e := min bx.exp byy.exp
      let mx := bx.mant * Nat.pow 2 (bx.exp - e).toNat
      let my := byy.mant * Nat.pow 2 (byy.exp - e).toNat
      let r := ofScaled (mx % my) e
      if neg then -r else r
    | _, _ => x

end Float

namespace SeriesCalc

/-- Truth of a number; none for NA. -/
def truth? (x : Float) : Option Bool := if x.isNaN then none else some (x != 0)

/-- `1` or `0`. -/
def ofBool (b : Bool) : Float := if b then 1 else 0

namespace Kernel

/-- `x ^ y` with its warning: NaN is out of domain, overflow from finite operands is not
finite. -/
def pow (x y : Float) : Float × Option Warning :=
  let r := Float.pow x y
  if r.isNaN then (0 / 0, some (.domain "^"))
  else if r.isInf && x.isFinite && y.isFinite then (0 / 0, some .nonFinite)
  else (r, none)

/-- Apply a binary operator to two numbers. `absorb` is the zero-times-NA rule. -/
def apply (op : BinaryOp) (absorb : Bool) (x y : Float) : Float × Option Warning :=
  let op := op.elementwise
  match op with
  | .mul => if absorb && (x == 0 || y == 0) then (0, none) else if x.isNaN || y.isNaN then (0 / 0, none) else (x * y, none)
  | .or =>
    match truth? x, truth? y with
    | some true, _ | _, some true => (1, none)
    | some false, some false => (0, none)
    | _, _ => (0 / 0, none)
  | .and =>
    match truth? x, truth? y with
    | some false, _ | _, some false => (0, none)
    | some true, some true => (1, none)
    | _, _ => (0 / 0, none)
  | _ =>
    if x.isNaN || y.isNaN then (0 / 0, none)
    else match op with
      | .add => (x + y, none)
      | .sub => (x - y, none)
      | .div => if y == 0 then (0 / 0, some .divisionByZero) else (x / y, none)
      | .mod => if y == 0 then (0 / 0, some .divisionByZero) else (Float.remainder x y, none)
      | .pow => pow x y
      | .eq => (ofBool (x == y), none)
      | .notEq => (ofBool (x != y), none)
      | .lt => (ofBool (x < y), none)
      | .ltEq => (ofBool (x ≤ y), none)
      | .gt => (ofBool (x > y), none)
      | .gtEq => (ofBool (x ≥ y), none)
      | _ => (0 / 0, none)

/-- Combine an old element with a new one under an assignment operator; plain assignment
and fill take the new one as it is. -/
def assign (old new : Float) (op : AssignOp) : Float × Option Warning :=
  match op with
  | .assign | .fill => (new, none)
  | .inc => apply .add true old 1
  | .dec => apply .sub true old 1
  | op => match op.binary? with
    | some b => apply b true old new
    | none => (new, none)

/-- Logical negation; NA stays NA. -/
def not (x : Float) : Float :=
  match truth? x with
  | some b => ofBool !b
  | none => 0 / 0

end Kernel

/-- Computations that may record numeric warnings. -/
abbrev Warned := StateM WarningLog

/-- Record a warning if there is one. -/
def Warned.note (w : Option Warning) : Warned Unit :=
  match w with
  | some w => modify (·.record w)
  | none => pure ()

/-- `Kernel.apply`, recording its warning. -/
def Kernel.calc (op : BinaryOp) (absorb : Bool) (x y : Float) : Warned Float := do
  let (r, w) := Kernel.apply op absorb x y
  Warned.note w
  return r

end SeriesCalc
