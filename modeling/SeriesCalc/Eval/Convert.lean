import SeriesCalc.Eval.Scratch

/-!
# Conversions on assignment

A value assigned to a target of a declared type is brought to that type:

| from | to | rule |
|---|---|---|
| scalar | matrix | 1×1 |
| real 1×1 matrix | scalar | its element |
| scalar | series | the scalar over the sample, NA elsewhere |
| column vector | series | a column as long as the sample or the dataset |
| series | matrix | its sample as a column, remembering the sample |
| dataset series | list | the list of its id |
| array | array of a kind | when the array is untyped or of that kind |

A value that already has the type is kept as it is (`conform`).
-/

namespace SeriesCalc

namespace DeclaredType

/-- The declared type an existing value has; `any` for null and untyped arrays. -/
def of (v : Value) : DeclaredType :=
  match v with
  | .null => .any
  | .scalar _ => .scalar
  | .series _ => .series
  | .matrix _ => .matrix
  | .str _ => .str
  | .list _ => .list
  | .bundle _ => .bundle
  | .array k _ => match k with
    | some k => .array k
    | none => .any

/-- The empty value of a container type, for a null assignment. -/
def empty? : DeclaredType → Option Value
  | .matrix => some (.matrix Matrix.empty)
  | .str => some (.str "")
  | .list => some (.list [])
  | .bundle => some (.bundle [])
  | .array k => some (.array (some k) [])
  | .any | .scalar | .series => none

/-- Whether an array of kind `k?` can be one of kind `k`. -/
def arrayFits (k? : Option ArrayKind) (k : ArrayKind) : Bool :=
  match k? with
  | some j => j == k
  | none => true

/-- Whether a value already has the type. -/
def admits (t : DeclaredType) (v : Value) : Bool :=
  match t, v with
  | .any, _ => true
  | .array k, .array j _ => arrayFits j k
  | t, v => t.valueKind? == some v.kind

end DeclaredType

/-- Convert an operand to a declared type. -/
def convert (ds : Dataset) (src : Operand) (target : DeclaredType) : Except EvalError Value :=
  let mismatch : Except EvalError Value := .error (Fault.typeMismatch target.name src.kind : EvalError)
  match target with
  | .any => .ok src.value
  | .scalar => match src.scalar? with
    | some x => .ok (.scalar x)
    | none => mismatch
  | .matrix => match src.value with
    | .matrix m => .ok (.matrix m)
    | .scalar x => .ok (.matrix (Matrix.ofScalar x))
    | .series xs => match sampleValues ds xs with
      | .ok sample => .ok (.matrix { Matrix.column sample with span := some ⟨ds.t1, ds.t2⟩ })
      | .error f => .error (f : EvalError)
    | _ => mismatch
  | .series => match src.value with
    | .series xs => .ok (.series xs)
    | _ => match Column.of? src ds with
      | some col => .ok (.series (fillSeriesPure ds col.at))
      | none => mismatch
  | .list => match src.value, src.origin with
    | .list ids, _ => .ok (.list ids)
    | .series _, some id => .ok (.list [id])
    | _, _ => mismatch
  | .str => match src.value with
    | .str s => .ok (.str s)
    | _ => mismatch
  | .bundle => match src.value with
    | .bundle ms => .ok (.bundle ms)
    | _ => mismatch
  | .array k => match src.value with
    | .array j items =>
      if DeclaredType.arrayFits j k then .ok (.array (some k) items)
      else .error (Fault.arrayKindMismatch (some k) ((j.map ArrayKind.elementKind).getD .null) : EvalError)
    | _ => mismatch

/-- Bring a value to a declared type, keeping it when it already has the type. -/
def conform (ds : Dataset) (src : Operand) (target : DeclaredType) : Except EvalError Operand :=
  if target.admits src.value then .ok src
  else (convert ds src target).map fun v => { value := v }

end SeriesCalc
