import SeriesCalc.Value.Basic
import SeriesCalc.Eval.Kernel

/-!
# Dense linear algebra

Products, solving, inverse, determinant, integer powers, Kronecker products and
concatenation of matrices.

* `solve a b`: Gaussian elimination with partial pivoting on real matrices; the pivot is the
  last row of largest magnitude in its column, a pivot below `1e-14` in magnitude means a
  singular matrix, and any NA refuses the system.
* `determinant`: the same elimination; a tiny pivot gives 0.
* `power a k`: repeated squaring for a square matrix and a whole `k ≥ 0`.
* `hcat`, `vcat`: side by side and stacked; an empty operand contributes nothing.

Sums run in the order of the index loops (`Σ_p x_ip · y_pj` from `p = 0`), which fixes the
rounding.

An operand whose shape overflows a word (`Matrix.overflows`) stores fewer entries than it has
positions. Each operation walks its operands in a fixed order, and for such an operand the
walk runs past the stored entries; the `…Overrun` functions find the first access that does,
and the operation stops there with `Fault.overrun`.
-/

namespace SeriesCalc

namespace Linalg

/-- Pivots smaller than this in magnitude count as zero. -/
def singularEps : Float := 1e-14

def singular : EvalError := (Fault.domain "matrix is singular" : EvalError)

/-- The refusal of a complex operand. -/
def complexUnsupported (what : String) : EvalError :=
  (Fault.typeMismatch ("real matrix for " ++ what) .matrix : EvalError)

/-- Where `a * b` first runs past stored entries. The product walks column `j` of `b`, then
`p` down it (reading entry `j·k + p` of `b`), then `i` down the result, reading entry
`p·n + i` of `a` and then writing entry `j·n + i` of the result. The reads of `b` count up
from zero, so `(j, p)` steps beyond the entries of `b` are never needed; within a step the
first overrun of the `a` reads and the result writes is where their offsets first reach
their ends. -/
def matmulOverrun (a b : Matrix) : Option Overrun :=
  let n := a.rows
  let k := a.cols
  let m := b.cols
  if !(a.overflows || b.overflows || Word.modulus ≤ n * m) || k == 0 then none
  else
    let la := a.entries.size
    let lb := b.entries.size
    let lo := Word.mul n m
    -- the first `i < n` at which the offsets `base + i` reach `len`, if one does
    let reach := fun (base len : Nat) => if base ≥ len then some 0 else if len - base < n then some (len - base) else none
    Overrun.find (fun s =>
      if s ≥ k * m then none
      else
        let j := s / k
        let p := s % k
        match Overrun.at? lb (b.offset p j) with
        | some o => some o
        | none =>
          let xBase := Word.mul p n
          let dBase := Word.mul j n
          match reach xBase la, reach dBase lo with
          | some ix, some id => if ix ≤ id then some ⟨la, xBase + ix⟩ else some ⟨lo, dBase + id⟩
          | some ix, none => some ⟨la, xBase + ix⟩
          | none, some id => some ⟨lo, dBase + id⟩
          | none, none => none) (lb + 1) 0

/-- `a * b`. -/
def matmul (a b : Matrix) : Except EvalError Matrix :=
  if a.cols != b.rows then .error (Fault.nonConformable "*" a.shape b.shape : EvalError)
  else if let some o := matmulOverrun a b then .error (Fault.overrun o : EvalError)
  else
    let n := a.rows
    let k := a.cols
    let m := b.cols
    match a.real?, b.real? with
    | some x, some y =>
      let entry := fun (idx : Nat) =>
        let i := idx % n
        let j := idx / n
        (List.range k).foldl (fun acc p => acc + x.getD (p * n + i) 0 * y.getD (j * k + p) 0) 0
      .ok ⟨n, m, .real ((List.range (Word.mul n m)).toArray.map entry), none⟩
    | _, _ =>
      let entry := fun (idx : Nat) =>
        let i := idx % n
        let j := idx / n
        (List.range k).foldl (fun acc p => acc.add ((a.elemComplex (p * n + i)).mul (b.elemComplex (j * k + p))))
          ⟨0, 0⟩
      .ok (Matrix.demoteIfReal ⟨n, m, .complex ((List.range (Word.mul n m)).toArray.map entry), none⟩)

/-- Row `i` of a real matrix as an array. -/
def rowsOf (xs : Array Float) (rows cols : Nat) : Array (Array Float) :=
  (List.range rows).toArray.map fun i => (List.range cols).toArray.map fun j => xs.getD (j * rows + i) 0

/-- The magnitude order used to pick pivots: a NaN is above every number. -/
def magnitudeLE (a b : Float) : Bool :=
  if b.isNaN then true else if a.isNaN then false else a ≤ b

/-- The last row in `col..n-1` whose entry in column `col` has the largest magnitude. -/
def pivotRow (w : Array (Array Float)) (col n : Nat) : Nat :=
  ((List.range n).drop col).foldl (fun best i =>
    if magnitudeLE ((w.getD best #[]).getD col 0).abs ((w.getD i #[]).getD col 0).abs then i else best) col

def swapRows (w : Array (Array Float)) (i j : Nat) : Array (Array Float) :=
  if i == j then w else (w.set! i (w.getD j #[])).set! j (w.getD i #[])

/-- Subtract `factor` times row `src` from row `dst`, in columns `from..width-1`. -/
def eliminate (w : Array (Array Float)) (dst src : Nat) (factor : Float) (start width : Nat) :
    Array (Array Float) :=
  let s := w.getD src #[]
  let d := ((List.range width).drop start).foldl (fun d j => d.set! j (d.getD j 0 - factor * s.getD j 0)) (w.getD dst #[])
  w.set! dst d

/-- Solve `a * x = b`. -/
def solve (a b : Matrix) : Except EvalError Matrix :=
  match a.real?, b.real? with
  | some av, some bv =>
    let n := a.rows
    if !a.isSquare || b.rows != n then .error (Fault.nonConformable "\\" a.shape b.shape : EvalError)
    else if av.any Float.isNaN || bv.any Float.isNaN then .error (Fault.missingData "matrix" : EvalError)
    else if let some o := a.rowwiseOverrun.orElse fun _ => b.rowwiseOverrun then .error (Fault.overrun o : EvalError)
    else
      let m := b.cols
      let step := fun (state : Except EvalError (Array (Array Float) × Array (Array Float))) (col : Nat) =>
        match state with
        | .error e => .error e
        | .ok (lhs, rhs) =>
          let piv := pivotRow lhs col n
          if ((lhs.getD piv #[]).getD col 0).abs < singularEps then .error singular
          else
            let lhs := swapRows lhs col piv
            let rhs := swapRows rhs col piv
            .ok (((List.range n).drop (col + 1)).foldl (fun (lhs, rhs) row =>
              let factor := (lhs.getD row #[]).getD col 0 / (lhs.getD col #[]).getD col 0
              if factor == 0 then (lhs, rhs)
              else (eliminate lhs row col factor col n, eliminate rhs row col factor 0 m)) (lhs, rhs))
      match (List.range n).foldl step (.ok (rowsOf av n n, rowsOf bv n m)) with
      | .error e => .error e
      | .ok (lhs, rhs) =>
        let x := (List.range m).foldl (fun x j =>
          (List.range n).reverse.foldl (fun x i =>
            let li := lhs.getD i #[]
            let acc := ((List.range n).drop (i + 1)).foldl (fun acc p => acc - li.getD p 0 * x.get p j)
              ((rhs.getD i #[]).getD j 0)
            x.set i j (acc / li.getD i 0)) x) (Matrix.zeros n m)
        .ok x
  | _, _ => .error (complexUnsupported "\\")

/-- Where writing the diagonal of the `n × n` identity first runs past its entries: only a
size whose square overflows has such a point, and the diagonal offsets `i·(n + 1)` grow from
zero, so one of the first `len + 1` reaches the number `len` of entries. -/
def identityOverrun (n : Nat) : Option Overrun :=
  if n * n < Word.modulus then none
  else
    let len := Word.mul n n
    Overrun.find (fun i => Overrun.at? len (Word.add (Word.mul i n) i)) (len + 1) 0

/-- The identity of size `n`; a size whose square overflows has none (`identityOverrun`). -/
def identity (n : Nat) : Matrix :=
  if n * n < Word.modulus then (List.range n).foldl (fun m i => m.set i i 1) (Matrix.zeros n n)
  else Matrix.zeros n n

def inverse (a : Matrix) : Except EvalError Matrix :=
  if !a.isSquare then .error (Fault.nonConformable "inv" a.shape a.shape : EvalError)
  else if let some o := identityOverrun a.rows then .error (Fault.overrun o : EvalError)
  else solve a (identity a.rows)

/-- A transpose, or the overrun that stops it. -/
def transposed (m : Matrix) : Except EvalError Matrix :=
  match m.transposeOverrun with
  | some o => .error (Fault.overrun o : EvalError)
  | none => .ok m.transpose

/-- `a * inv(b)`, as `solve(b', a')'`. -/
def rightDivide (a b : Matrix) : Except EvalError Matrix :=
  if a.cols != b.rows || !b.isSquare then .error (Fault.nonConformable "/" a.shape b.shape : EvalError)
  else do
    let tb ← transposed b
    let ta ← transposed a
    transposed (← solve tb ta)

def determinant (a : Matrix) : Except EvalError Float :=
  match a.real? with
  | none => .error (complexUnsupported "det")
  | some av =>
    if !a.isSquare then .error (Fault.nonConformable "det" a.shape a.shape : EvalError)
    else if let some o := a.rowwiseOverrun then .error (Fault.overrun o : EvalError)
    else
      let n := a.rows
      let step := fun (state : Option (Array (Array Float) × Float)) (col : Nat) =>
        match state with
        | none => none
        | some (w, det) =>
          let piv := pivotRow w col n
          if ((w.getD piv #[]).getD col 0).abs < singularEps then none
          else
            let (w, det) := if piv != col then (swapRows w col piv, -det) else (w, det)
            let det := det * (w.getD col #[]).getD col 0
            let w := ((List.range n).drop (col + 1)).foldl (fun w row =>
              let factor := (w.getD row #[]).getD col 0 / (w.getD col #[]).getD col 0
              eliminate w row col factor col n) w
            some (w, det)
      match (List.range n).foldl step (some (rowsOf av n n, 1)) with
      | some (_, det) => .ok det
      | none => .ok 0

/-- `a ^ k` by repeated squaring. -/
def power (a : Matrix) (k : Float) : Except EvalError Matrix :=
  if !a.isSquare then .error (Fault.nonConformable "^" a.shape (1, 1) : EvalError)
  else if k < 0 || !k.isWhole then .error (Fault.domain "matrix power must be a non-negative integer" : EvalError)
  else if let some o := identityOverrun a.rows then .error (Fault.overrun o : EvalError)
  else
    let rec go (fuel : Nat) (exp : Nat) (result base : Matrix) : Except EvalError Matrix :=
      match fuel with
      | 0 => .ok result
      | fuel + 1 =>
        if exp == 0 then .ok result
        else do
          let result ← if exp % 2 == 1 then matmul result base else pure result
          let exp := exp / 2
          let base ← if exp > 0 then matmul base base else pure base
          go fuel exp result base
    go 64 k.toCount (identity a.rows) a

/-- Kronecker product. -/
def kron (a b : Matrix) : Except EvalError Matrix :=
  let (ar, ac) := a.shape
  let (br, bc) := b.shape
  let rows := ar * br
  let cols := ac * bc
  if rows ≥ Nat.pow 2 64 || cols ≥ Nat.pow 2 64 then .error (Fault.allocationFailure s!"{ar}x{ac} ** {br}x{bc}" : EvalError)
  else if !Matrix.fits rows cols then .error (Fault.allocationFailure s!"{rows}x{cols} matrix" : EvalError)
  -- every entry of `a` is read in order, even when `b` is empty
  else if a.overflows then .error (Fault.overrun ⟨a.entries.size, a.entries.size⟩ : EvalError)
  else
    let out := Matrix.zeros rows cols
    let out := if a.isComplex || b.isComplex then out.promote else out
    let cells := (List.range ac).flatMap fun ja => (List.range ar).flatMap fun ia =>
      (List.range bc).flatMap fun jb => (List.range br).map fun ib => (ia, ja, ib, jb)
    .ok (cells.foldl (fun out (ia, ja, ib, jb) =>
      out.setComplex (ia * br + ib) (ja * bc + jb) ((a.getComplex ia ja).mul (b.getComplex ib jb))) out)

/-- Side by side (`~`). The entries of `a` and then of `b` are written in order into a result
of `rows · (cols a + cols b)` entries, a word product of a word sum; an overflowing shape may
leave it too few. -/
def hcat (a b : Matrix) : Except EvalError Matrix :=
  if a.isEmpty then .ok b
  else if b.isEmpty then .ok a
  else if a.rows != b.rows then .error (Fault.nonConformable "~" a.shape b.shape : EvalError)
  else
    let out := Matrix.zeros a.rows (Word.add a.cols b.cols)
    let lo := out.entries.size
    if lo < a.size + b.size then .error (Fault.overrun ⟨lo, lo⟩ : EvalError) else
    let out := if a.isComplex || b.isComplex then out.promote else out
    let out := (List.range a.size).foldl (fun o k => o.setAt k (a.elemComplex k)) out
    .ok ((List.range b.size).foldl (fun o k => o.setAt (a.size + k) (b.elemComplex k)) out)

/-- Where stacking first runs past stored entries: column by column, the entries of `a` and
then of `b` are read and written into a result of `rows a + rows b` rows (a word sum). The
reads of each operand and the writes count up from zero, so the first
`len a + len b + len result + 3` steps reach any overrun. -/
def vcatOverrun (a b : Matrix) : Option Overrun :=
  let ra := a.rows
  let rb := b.rows
  let rows := Word.add ra rb
  let lo := Word.mul rows a.cols
  if !(a.overflows || b.overflows || Word.modulus ≤ rows * a.cols) || ra + rb == 0 then none
  else
    Overrun.find (fun s =>
      if s ≥ (ra + rb) * a.cols then none
      else
        let j := s / (ra + rb)
        let q := s % (ra + rb)
        let write := Word.add (Word.mul j rows)
        if q < ra then (Overrun.at? a.entries.size (a.offset q j)).orElse fun _ => Overrun.at? lo (write q)
        else (Overrun.at? b.entries.size (b.offset (q - ra) j)).orElse fun _ =>
          Overrun.at? lo (write (Word.add ra (q - ra))))
      (a.entries.size + b.entries.size + lo + 3) 0

/-- Stacked (`|`). -/
def vcat (a b : Matrix) : Except EvalError Matrix :=
  if a.isEmpty then .ok b
  else if b.isEmpty then .ok a
  else if a.cols != b.cols then .error (Fault.nonConformable "|" a.shape b.shape : EvalError)
  else if let some o := vcatOverrun a b then .error (Fault.overrun o : EvalError)
  else if a.overflows || b.overflows then .ok (Matrix.zeros (Word.add a.rows b.rows) a.cols)
  else
    let ra := a.rows
    let out := Matrix.zeros (ra + b.rows) a.cols
    let out := if a.isComplex || b.isComplex then out.promote else out
    .ok ((List.range a.cols).foldl (fun o j =>
      let o := (List.range ra).foldl (fun o i => o.setComplex i j (a.getComplex i j)) o
      (List.range b.rows).foldl (fun o i => o.setComplex (ra + i) j (b.getComplex i j)) o) out)

end Linalg

end SeriesCalc
