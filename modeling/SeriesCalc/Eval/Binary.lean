import SeriesCalc.Eval.Numeric
import SeriesCalc.Eval.MatrixOps
import SeriesCalc.Eval.Collections

/-!
# Binary operators

`Binary.apply` picks the family of an operation from the kinds of its operands, in this
order: a string on either side; an array on the left; a bundle on either side; a list on
either side; a dotted operator (which needs a matrix); a series against a column vector or
1×1 matrix under an elementwise operator; any other matrix; series and scalars under an
elementwise operator; two scalars under `~`, `|` or the Kronecker product (which build
matrices). Everything else is refused with the operator and both kinds.
-/

namespace SeriesCalc

namespace Binary

/-- `a op b`, written into the cell. -/
def apply (env : OpEnv) (op : BinaryOp) (a b : Operand) : OpM Unit :=
  let refuse : OpM Unit := OpM.fail (.binaryTypeMismatch op.symbol a.kind b.kind)
  match a.value, b.value with
  | .str _, _ | _, .str _ => Collections.strings env op a b
  | .array .., _ => Collections.arrays op a b
  | .bundle _, _ | _, .bundle _ => Collections.bundles op a b
  | .list _, _ | _, .list _ => Collections.lists op a b
  | va, vb =>
    if op.isDot then
      match va, vb with
      | .matrix _, _ | _, .matrix _ => MatrixOps.apply env op a b
      | _, _ => refuse
    else
      match va, vb with
      | .series _, .matrix m | .matrix m, .series _ =>
        if op.isNumeric && (m.isScalar || m.cols == 1) then Numeric.series env op a b
        else MatrixOps.apply env op a b
      | .matrix _, _ | _, .matrix _ => MatrixOps.apply env op a b
      | .series _, .series _ | .series _, .scalar _ | .scalar _, .series _ =>
        if op.isNumeric then Numeric.series env op a b else refuse
      | .scalar x, .scalar y =>
        if op.isNumeric then Numeric.scalar env op x y
        else match op with
          | .concat | .union | .kron => MatrixOps.apply env op a b
          | _ => refuse
      | _, _ => refuse

end Binary

end SeriesCalc
