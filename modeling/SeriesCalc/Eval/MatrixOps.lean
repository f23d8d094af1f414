import SeriesCalc.Eval.Scratch
import SeriesCalc.Eval.Linalg

/-!
# Operators with a matrix operand

Scalars and 1×1 matrices broadcast against any shape; the dotted operators also let a row or
column vector broadcast along the other dimension. Plain comparisons of matrices give one
scalar, 1 when the comparison holds for every element pair; the dotted comparisons give 0/1
matrices.

Complex operands support `+ - * /`, powers and (in)equality; any other operator refuses
them. Complex results whose imaginary parts are all zero become real. Elementwise results
never apply the zero-times-NA rule.

A result shape whose product overflows a word is walked only until the walk runs past the
stored entries of an operand or of the result (`MatrixOps.overrun`), where it stops.
-/

namespace SeriesCalc

namespace MatrixOps

/-- The shape of an elementwise result. -/
def broadcastShape (op : BinaryOp) (a b : Nat × Nat) (dot : Bool) : Except EvalError (Nat × Nat) :=
  if a == b then .ok a
  else if a == (1, 1) then .ok b
  else if b == (1, 1) then .ok a
  else
    let dim := fun (x y : Nat) => if x == y then some x else if x == 1 then some y else if y == 1 then some x else none
    match dot, dim a.1 b.1, dim a.2 b.2 with
    | true, some r, some c => .ok (r, c)
    | _, _, _ => .error (Fault.nonConformable op.symbol a b : EvalError)

/-- The offset of `(r, c)` in `m`, a singleton dimension broadcast. -/
def bidx (m : Matrix) (r c : Nat) : Nat :=
  let r := if m.rows == 1 then 0 else r
  let c := if m.cols == 1 then 0 else c
  m.offset r c

/-- Where an elementwise walk over the result shape `(rows, cols)` first runs past stored
entries, looking at `fuel` steps: step `t` (column `t / rows`, row `t % rows`) reads `a` and
`b` at their broadcast offsets and, when `writes`, then writes entry `t` of a result holding
the word product of the shape. Only an overflowing result shape has such a point; the
offsets of an operand of the full shape count up with `t`, as the writes do, so
`len a + len b + len result + 1` steps reach it. -/
def overrun (a b : Matrix) (rows cols : Nat) (writes : Bool) (fuel : Nat) : Option Overrun :=
  if rows * cols < Word.modulus then none
  else
    let lo := Word.mul rows cols
    Overrun.find (fun t =>
      let r := t % rows
      let c := t / rows
      (Overrun.at? a.entries.size (bidx a r c)).orElse fun _ =>
      (Overrun.at? b.entries.size (bidx b r c)).orElse fun _ =>
      if writes then Overrun.at? lo t else none) fuel 0

/-- One complex element operation, with its warning. -/
def complexCalc (x y : Complex) (op : BinaryOp) : Except EvalError (Complex × Option Warning) :=
  match op with
  | .add => .ok (x.add y, none)
  | .sub => .ok (x.sub y, none)
  | .mul => .ok (x.mul y, none)
  | .div => if y.re == 0 && y.im == 0 then .ok (⟨NA, NA⟩, some .divisionByZero) else .ok (x.div y, none)
  | .pow => .ok (x.pow y, none)
  | .eq => .ok (⟨ofBool (x.eq y), 0⟩, none)
  | .notEq => .ok (⟨ofBool !(x.eq y), 0⟩, none)
  | other => .error (Fault.typeMismatch ("real matrix for " ++ "\x60" ++ other.symbol ++ "\x60") .matrix : EvalError)

/-- Run `complexCalc` in an operator, recording its warning. -/
def complexStep (x y : Complex) (op : BinaryOp) : OpM Complex := do
  let (z, w) ← OpM.lift (complexCalc x y op)
  OpM.warned (Warned.note w)
  return z

/-- Stop where a walk over an overflowing result shape runs past stored entries. A complex
walk whose operator is refused is refused at its first element, once that is read. -/
def stopOverflowing (op : BinaryOp) (a b : Matrix) (rows cols : Nat) (writes : Bool) : OpM Unit := do
  if a.isComplex || b.isComplex then
    OpM.liftFault (Fault.check (overrun a b rows cols false 1))
    let _ ← complexStep (a.elemComplex 0) (b.elemComplex 0) op
  let fuel := a.entries.size + b.entries.size + Word.mul rows cols + 1
  OpM.liftFault (Fault.check (overrun a b rows cols writes fuel))

/-- `a op b` element by element, into the cell. A complex computation starts from a
complex matrix in the cell, which stays there if an element is refused. -/
def elementwise (op : BinaryOp) (a b : Matrix) (dot : Bool) : OpM Unit := do
  let (rows, cols) ← OpM.lift (broadcastShape op a.shape b.shape dot)
  let sop := op.elementwise
  if Word.modulus ≤ rows * cols then stopOverflowing sop a b rows cols true
  let offsets := List.range (Word.mul rows cols)
  let pair := fun (k : Nat) => (bidx a (k % rows) (k / rows), bidx b (k % rows) (k / rows))
  if a.isComplex || b.isComplex then
    OpM.put (.matrix (Matrix.reshapeComplex Matrix.empty rows cols))
    let zs ← offsets.foldlM (fun (acc : Array Complex) k => do
      let (ka, kb) := pair k
      return acc.push (← complexStep (a.elemComplex ka) (b.elemComplex kb) sop)) (Array.mkEmpty (Word.mul rows cols))
    OpM.put (.matrix (Matrix.demoteIfReal ⟨rows, cols, .complex zs, none⟩))
  else
    let xs ← OpM.warned (offsets.foldlM (fun (acc : Array Float) k => do
      let (ka, kb) := pair k
      return acc.push (← Kernel.calc sop false (a.elem ka) (b.elem kb))) (Array.mkEmpty (Word.mul rows cols)))
    OpM.put (.matrix ⟨rows, cols, .real xs, none⟩)

/-- A plain comparison: 1 when it holds for every element pair. -/
def compareAll (op : BinaryOp) (a b : Matrix) : OpM Unit := do
  let (rows, cols) ← OpM.lift (broadcastShape op a.shape b.shape false)
  if Word.modulus ≤ rows * cols then stopOverflowing op a b rows cols false
  let all ← (List.range (Word.mul rows cols)).foldlM (fun all k => do
    let (ka, kb) := (bidx a (k % rows) (k / rows), bidx b (k % rows) (k / rows))
    let holds ←
      if a.isComplex || b.isComplex then
        pure (← complexStep (a.elemComplex ka) (b.elemComplex kb) op).re
      else OpM.warned (Kernel.calc op false (a.elem ka) (b.elem kb))
    return all && holds == 1) true
  OpM.put (.scalar (ofBool all))

/-- `a op b` where one side is a matrix (or both are scalars under `~`, `|` or `**`). -/
def apply (env : OpEnv) (op : BinaryOp) (a b : Operand) : OpM Unit := do
  let ma? ← OpM.liftFault (asMatrix? a env.ds)
  let mb? ← OpM.liftFault (asMatrix? b env.ds)
  match ma?, mb? with
  | some ma, some mb =>
    if op.isDot then elementwise op ma mb true
    else
      let whole := fun (r : Except EvalError Matrix) => do OpM.put (.matrix (← OpM.lift r))
      match op with
      | .add | .sub | .mod | .and | .or => elementwise op ma mb false
      | .mul => if ma.isScalar || mb.isScalar then elementwise op ma mb false else whole (Linalg.matmul ma mb)
      | .div => if mb.isScalar then elementwise op ma mb false else whole (Linalg.rightDivide ma mb)
      | .ldiv => if ma.isScalar then elementwise .div mb ma false else whole (Linalg.solve ma mb)
      | .pow =>
        if ma.isScalar then elementwise op ma mb false
        else match b.scalar? with
          | some k => whole (Linalg.power ma k)
          | none => OpM.fail (.nonConformable "^" ma.shape mb.shape)
      | .eq | .notEq | .lt | .ltEq | .gt | .gtEq => compareAll op ma mb
      | .concat => whole (Linalg.hcat ma mb)
      | .union => whole (Linalg.vcat ma mb)
      | .kron => whole (Linalg.kron ma mb)
      | _ => OpM.fail (.binaryTypeMismatch op.symbol a.kind b.kind)
  | _, _ => OpM.fail (.binaryTypeMismatch op.symbol a.kind b.kind)

end MatrixOps

end SeriesCalc
