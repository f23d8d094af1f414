/-!
# Complex numbers over `Float`

The arithmetic of complex matrix entries, by the textbook formulas and in their order of
operations: a product is `(ac - bd) + (ad + bc)i`, a quotient divides the two cross sums by
`c² + d²` (no scaling), and a power is `e^(b · ln a)` with the modulus of `a` from `hypot`.
A NaN anywhere stays a NaN in each part it touches, so a product with a NaN real operand has
a NaN imaginary part too.
-/

namespace SeriesCalc

/-- A complex number with `Float` parts. -/
structure Complex where
  re : Float
  im : Float
deriving Inhabited

namespace Complex

/-- A real number as a complex one. -/
def ofReal (x : Float) : Complex := ⟨x, 0⟩

def add (a b : Complex) : Complex := ⟨a.re + b.re, a.im + b.im⟩
def sub (a b : Complex) : Complex := ⟨a.re - b.re, a.im - b.im⟩
def mul (a b : Complex) : Complex := ⟨a.re * b.re - a.im * b.im, a.re * b.im + a.im * b.re⟩

/-- Quotient by the cross sums over `|b|²`. -/
def div (a b : Complex) : Complex :=
  let n := b.re * b.re + b.im * b.im
  ⟨(a.re * b.re + a.im * b.im) / n, (a.im * b.re - a.re * b.im) / n⟩

/-- Each part times a real factor. -/
def scale (a : Complex) (s : Float) : Complex := ⟨a.re * s, a.im * s⟩

def conj (a : Complex) : Complex := ⟨a.re, -a.im⟩

/-- Both parts equal under float comparison (a NaN part equals nothing). -/
def eq (a b : Complex) : Bool := a.re == b.re && a.im == b.im

def isZero (a : Complex) : Bool := a.re == 0 && a.im == 0

/-- `√(x² + y²)` as the C library's `hypot` computes it: the larger part `ax` and the smaller
`ay` are scaled away from overflow and underflow, a negligible `ay` is simply added, and
otherwise the square root of `ax² + ay²` gets one correction step for the rounding of the
squares. An infinite part gives infinity even beside a NaN. -/
def hypot (x y : Float) : Float :=
  let inf : Float := 1 / 0
  let scale := Float.ofBits 0x1A70000000000000  -- 2^-600
  let large := Float.ofBits 0x5FE0000000000000  -- 2^511
  let tiny := Float.ofBits 0x2000000000000000   -- 2^-511
  let eps := Float.ofBits 0x3C90000000000000    -- 2^-54
  let kernel := fun (ax ay : Float) =>
    let h := Float.sqrt (ax * ax + ay * ay)
    let (t1, t2) :=
      if h ≤ 2 * ay then
        let delta := h - ay
        (ax * (2 * delta - ax), (delta - 2 * (ax - ay)) * delta)
      else
        let delta := h - ax
        (2 * delta * (ax - 2 * ay), (4 * delta - ay) * ay + delta * delta)
    h - (t1 + t2) / (2 * h)
  if !x.isFinite || !y.isFinite then
    if x.isInf || y.isInf then inf else x + y
  else
    let x := x.abs
    let y := y.abs
    let ax := if x < y then y else x
    let ay := if x < y then x else y
    if ax > large then
      if ay ≤ ax * eps then ax + ay else kernel (ax * scale) (ay * scale) / scale
    else if ay < tiny then
      if ax ≥ ay / eps then ax + ay else kernel (ax / scale) (ay / scale) * scale
    else if ay ≤ ax * eps then ax + ay
    else kernel ax ay

/-- The modulus `|a|`. -/
def abs (a : Complex) : Float := hypot a.re a.im

/-- Angle of the number, in `(-π, π]`. -/
def arg (a : Complex) : Float := Float.atan2 a.im a.re

/-- The number with modulus `r` and angle `θ`. -/
def ofPolar (r θ : Float) : Complex := ⟨r * Float.cos θ, r * Float.sin θ⟩

/-- The principal logarithm `ln|a| + i·arg a`. -/
def log (a : Complex) : Complex := ⟨Float.log a.abs, a.arg⟩

/-- `e^a`, with the limits of the infinite and NaN real parts: `e^(-∞ + bi)` is `0` for any
non-finite `b`, `e^(+∞ + 0i)` is `+∞`, `e^(+∞ ± ∞i)` has a NaN angle, and a NaN real part
with no imaginary part stays as it is. -/
def exp (a : Complex) : Complex :=
  if a.re.isInf then
    if a.re < 0 then
      if !a.im.isFinite then ⟨0, 0⟩ else ofPolar (Float.exp a.re) a.im
    else if a.im == 0 || !a.im.isFinite then
      ⟨a.re, if a.im.isInf then 0 / 0 else a.im⟩
    else ofPolar (Float.exp a.re) a.im
  else if a.re.isNaN && a.im == 0 then a
  else ofPolar (Float.exp a.re) a.im

/-- `a ^ b` as `e^(b · ln a)`; a zero exponent gives `1`. -/
def pow (a b : Complex) : Complex :=
  if b.isZero then ⟨1, 0⟩ else exp (mul b a.log)

end Complex

end SeriesCalc
