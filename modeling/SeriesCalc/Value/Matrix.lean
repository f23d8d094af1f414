import SeriesCalc.Value.Complex
import SeriesCalc.Value.Word
import SeriesCalc.Decimal.Layout

/-!
# Dense matrices

A matrix has a shape, entries in column-major order, and possibly an observation span: the
range of dataset observations its rows were gathered from. Entries are real or complex; a
write with a nonzero (or NaN) imaginary part turns a real matrix complex, and
`demoteIfReal` turns a complex matrix with only zero imaginary parts back.

Comparison (`Matrix.same`) looks at shape and entries; the span is metadata and is ignored,
a real matrix never equals a complex one, and two real NA entries are equal.

The number of entries is the word product of the shape (`Matrix.size`), so a shape whose
product passes `2^64` counts as many entries as the product leaves after wrapping. Such a
matrix (`Matrix.overflows`) has fewer entries than positions, and walking its shape runs
past them: `transposeOverrun` and `rowwiseOverrun` say where, and the walks themselves
(`transpose`, `display`) are only meaningful for a matrix that does not overflow.
-/

namespace SeriesCalc

/-- Matrix entries, column-major. -/
inductive Entries where
  | real (xs : Array Float)
  | complex (zs : Array Complex)
deriving Inhabited

/-- Observations `t1..t2` (0-based, inclusive) that the rows of a matrix came from. -/
structure Span where
  t1 : Nat
  t2 : Nat
deriving DecidableEq, BEq, Inhabited, Repr

/-- A dense matrix: `rows × cols` entries stored column-major. -/
structure Matrix where
  rows : Nat
  cols : Nat
  entries : Entries
  span : Option Span := none
deriving Inhabited

namespace Entries

def size : Entries → Nat
  | .real xs => xs.size
  | .complex zs => zs.size

end Entries

namespace Matrix

/-- `rows × cols` copies of `x`. -/
def filled (rows cols : Nat) (x : Float) : Matrix :=
  ⟨rows, cols, .real (Array.replicate (Word.mul rows cols) x), none⟩

def zeros (rows cols : Nat) : Matrix := filled rows cols 0

/-- The empty `0 × 0` matrix. -/
def empty : Matrix := zeros 0 0

/-- The `1 × 1` matrix holding `x`. -/
def ofScalar (x : Float) : Matrix := filled 1 1 x

def column (xs : Array Float) : Matrix := ⟨xs.size, 1, .real xs, none⟩

def row (xs : Array Float) : Matrix := ⟨1, xs.size, .real xs, none⟩

def shape (m : Matrix) : Nat × Nat := (m.rows, m.cols)

/-- The number of entries: the word product of the shape. -/
def size (m : Matrix) : Nat := Word.mul m.rows m.cols

def isEmpty (m : Matrix) : Bool := m.size == 0

/-- `1 × 1`. -/
def isScalar (m : Matrix) : Bool := m.rows == 1 && m.cols == 1

/-- One row or one column. -/
def isVector (m : Matrix) : Bool := m.rows == 1 || m.cols == 1

def isSquare (m : Matrix) : Bool := m.rows == m.cols

def isComplex (m : Matrix) : Bool :=
  match m.entries with
  | .real _ => false
  | .complex _ => true

/-- Real entries, `none` for a complex matrix. -/
def real? (m : Matrix) : Option (Array Float) :=
  match m.entries with
  | .real xs => some xs
  | .complex _ => none

/-- Entry at a column-major offset; the real part of a complex entry. -/
def elem (m : Matrix) (k : Nat) : Float :=
  match m.entries with
  | .real xs => xs.getD k 0
  | .complex zs => (zs.getD k default).re

/-- Entry at a column-major offset as a complex number. -/
def elemComplex (m : Matrix) (k : Nat) : Complex :=
  match m.entries with
  | .real xs => Complex.ofReal (xs.getD k 0)
  | .complex zs => zs.getD k default

/-- The column-major offset of `(r, c)`, a word. -/
def offset (m : Matrix) (r c : Nat) : Nat := Word.add (Word.mul c m.rows) r

def get (m : Matrix) (r c : Nat) : Float := m.elem (m.offset r c)

def getComplex (m : Matrix) (r c : Nat) : Complex := m.elemComplex (m.offset r c)

/-- Real storage made complex, entry by entry. -/
def promote (m : Matrix) : Matrix :=
  match m.entries with
  | .real xs => { m with entries := .complex (xs.map Complex.ofReal) }
  | .complex _ => m

/-- Complex storage made real when every imaginary part is zero. -/
def demoteIfReal (m : Matrix) : Matrix :=
  match m.entries with
  | .complex zs => if zs.all (fun z => z.im == 0) then { m with entries := .real (zs.map (·.re)) } else m
  | .real _ => m

/-- Write at a column-major offset. A nonzero imaginary part (NaN counts) makes the matrix
complex first; a real matrix otherwise keeps only the real part. -/
def setAt (m : Matrix) (k : Nat) (z : Complex) : Matrix :=
  match (if z.im != 0 then m.promote else m) with
  | ⟨r, c, .real xs, span⟩ => ⟨r, c, .real (xs.set! k z.re), span⟩
  | ⟨r, c, .complex zs, span⟩ => ⟨r, c, .complex (zs.set! k z), span⟩

def set (m : Matrix) (r c : Nat) (x : Float) : Matrix := m.setAt (m.offset r c) (Complex.ofReal x)

def setComplex (m : Matrix) (r c : Nat) (z : Complex) : Matrix := m.setAt (m.offset r c) z

/-- Drop metadata left from an earlier use. -/
def clearMeta (m : Matrix) : Matrix := { m with span := none }

/-- Real zeros of a new shape, without span. -/
def reshapeReal (_ : Matrix) (rows cols : Nat) : Matrix := zeros rows cols

/-- Complex zeros of a new shape, without span. -/
def reshapeComplex (_ : Matrix) (rows cols : Nat) : Matrix :=
  ⟨rows, cols, .complex (Array.replicate (Word.mul rows cols) ⟨0, 0⟩), none⟩

/-- The largest number of entries a matrix may hold: `2^33` entries (64 GiB of reals). A
larger request is refused as an allocation failure. -/
def maxEntries : Nat := Nat.pow 2 33

/-- Whether a matrix of this shape can be allocated. -/
def fits (rows cols : Nat) : Bool := rows * cols ≤ maxEntries

/-- Whether the shape's product passes a word, so that the matrix stores fewer entries than
it has positions. -/
def overflows (m : Matrix) : Bool := Word.modulus ≤ m.rows * m.cols

/-- Where reading `m` row by row (row `i` outer, column `j` inner, offset `j·rows + i`) first
runs past its entries. Only an overflowing matrix has such a point, and row 0 already reaches
it: its offsets `j·rows` grow by `rows ≥ 1` from zero, so one of the first `len + 1` is at
least the number `len` of entries. -/
def rowwiseOverrun (m : Matrix) : Option Overrun :=
  if !m.overflows then none
  else
    let len := m.entries.size
    Overrun.find (fun j => Overrun.at? len (m.offset 0 j)) (len + 1) 0

/-- Where transposing `m` first runs past its entries: step `t` (column `j = t / rows`, row
`i = t % rows`) reads offset `j·rows + i` of `m` and then writes offset `i·cols + j` of a
result with as many entries. Only an overflowing matrix has such a point, and the reads count
up from zero, so the first `len + 1` steps reach it. -/
def transposeOverrun (m : Matrix) : Option Overrun :=
  if !m.overflows then none
  else
    let len := m.entries.size
    Overrun.find (fun t =>
      let j := t / m.rows
      let i := t % m.rows
      (Overrun.at? len (m.offset i j)).orElse fun _ => Overrun.at? len (Word.add (Word.mul i m.cols) j))
      (len + 1) 0

/-- Every entry, converting complex ones to their conjugate, in transposed position. An
overflowing matrix has no transpose (`transposeOverrun`); it keeps its entries. -/
def transpose (m : Matrix) : Matrix :=
  let r := m.rows
  let c := m.cols
  let idx := (List.range m.size).toArray
  -- entry `(i, j)` of the result is entry `(j, i)` of `m`
  match m.entries with
  | .real xs =>
    ⟨c, r, .real (idx.map fun k => xs.getD ((k % c) * r + k / c) 0), none⟩
  | .complex zs =>
    ⟨c, r, .complex (idx.map fun k => (zs.getD ((k % c) * r + k / c) default).conj), none⟩

/-- The real parts as a new real matrix. -/
def realPart (m : Matrix) : Matrix :=
  ⟨m.rows, m.cols, .real ((List.range m.size).toArray.map m.elem), none⟩

/-- The imaginary parts as a new real matrix (zeros for a real one). -/
def imagPart (m : Matrix) : Matrix :=
  match m.entries with
  | .real xs => ⟨m.rows, m.cols, .real (Array.replicate xs.size 0), none⟩
  | .complex zs => ⟨m.rows, m.cols, .real (zs.map (·.im)), none⟩

/-- Every entry is exactly `0` or `1`; never for a complex matrix. -/
def isZeroOne (m : Matrix) : Bool :=
  match m.entries with
  | .real xs => xs.all (fun x => x == 0 || x == 1)
  | .complex _ => false

/-- Equality of reals that counts two NAs as equal. -/
def naEq (a b : Float) : Bool := (a.isNaN && b.isNaN) || a == b

/-- Same shape and entries; spans are ignored; NA equals NA in a real matrix. -/
def same (a b : Matrix) : Bool :=
  a.shape == b.shape && a.entries.size == b.entries.size &&
    match a.entries, b.entries with
    | .real xs, .real ys => (xs.zip ys).all fun (x, y) => naEq x y
    | .complex xs, .complex ys => (xs.zip ys).all fun (x, y) => x.eq y
    | _, _ => false

/-- `x` with an explicit sign, as in `+2` or `-0.5`; NaN has none. -/
def signedText (x : Float) : String :=
  let t := Decimal.Float.positional x
  if x.isNaN || t.startsWith "-" then t else "+" ++ t

/-- `{a, b; c, d}`: rows separated by `; `, NA for a NaN real part, complex entries as
`re±imi`. An overflowing matrix cannot be displayed (`rowwiseOverrun`) and shows as `{}`. -/
def display (m : Matrix) : String :=
  if m.overflows then "\x7b\x7d" else
  let entry (i j : Nat) : String :=
    let z := m.getComplex i j
    if z.re.isNaN then "NA"
    else if m.isComplex then Decimal.Float.positional z.re ++ signedText z.im ++ "i"
    else Decimal.Float.positional z.re
  let rowText (i : Nat) := ", ".intercalate ((List.range m.cols).map (entry i))
  "\x7b" ++ "; ".intercalate ((List.range m.rows).map rowText) ++ "\x7d"

end Matrix

end SeriesCalc
