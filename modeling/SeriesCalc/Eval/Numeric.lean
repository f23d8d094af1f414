import SeriesCalc.Eval.Scratch

/-!
# Scalar and series arithmetic, and the unary operators

A series result has one entry per observation; only the sample is computed, and everything
outside it is NA. A series combines with scalars, with series and with real column vectors
as long as the sample or the dataset (`Column.of?`).

Unary minus, plus and negation work on scalars, series and matrices (a complex matrix keeps
its imaginary parts under `-` and `+`; `!` reads real parts); the transpose `'` works on
matrices and leaves a scalar as it is.
-/

namespace SeriesCalc

namespace Numeric

/-- Scalar op scalar. -/
def scalar (env : OpEnv) (op : BinaryOp) (x y : Float) : OpM Unit := do
  OpM.put (.scalar (← OpM.warned (Kernel.calc op env.absorb x y)))

/-- An elementwise operation with a series side. -/
def series (env : OpEnv) (op : BinaryOp) (a b : Operand) : OpM Unit := do
  match Column.of? a env.ds, Column.of? b env.ds with
  | some ca, some cb =>
    let xs ← OpM.warned (fillSeries env.ds fun t => Kernel.calc op env.absorb (ca.at t) (cb.at t))
    OpM.put (.series xs)
  | _, _ =>
    match a.value, b.value with
    | .matrix m, _ | _, .matrix m => OpM.fail (.nonConformable op.symbol m.shape (env.ds.sampleLen, 1))
    | _, _ => OpM.fail (.binaryTypeMismatch op.symbol a.kind b.kind)

/-- The number map of a unary operator other than the transpose. -/
def unaryMap : UnaryOp → Float → Float
  | .neg => fun v => -v
  | .not => Kernel.not
  | _ => fun v => v

/-- `op x`. -/
def unary (env : OpEnv) (op : UnaryOp) (x : Operand) : OpM Unit :=
  match op, x.value with
  | .transpose, .scalar v => OpM.put (.scalar v)
  | .transpose, .matrix m => do
    OpM.liftFault (Fault.check m.transposeOverrun)
    OpM.put (.matrix m.transpose)
  | .transpose, _ => OpM.fail (.typeMismatch ("matrix for " ++ "\x60'\x60") x.kind)
  | op, .scalar v => OpM.put (.scalar (unaryMap op v))
  | op, .series xs => do
    OpM.liftFault (sampleStored env.ds xs)
    OpM.put (.series (fillSeriesPure env.ds fun t => unaryMap op (xs.getD t NA)))
  | op, .matrix m =>
    match m.entries, op with
    | .complex zs, .neg => OpM.put (.matrix ⟨m.rows, m.cols, .complex (zs.map (·.scale (-1))), none⟩)
    | .complex zs, .plus => OpM.put (.matrix ⟨m.rows, m.cols, .complex (zs.map (·.scale 1)), none⟩)
    | _, _ => OpM.put (.matrix ⟨m.rows, m.cols, .real ((List.range m.size).toArray.map fun k => unaryMap op (m.elem k)), none⟩)
  | op, _ => OpM.fail (.typeMismatch ("scalar, series or matrix for " ++ "\x60" ++ op.symbol ++ "\x60") x.kind)

end Numeric

end SeriesCalc
