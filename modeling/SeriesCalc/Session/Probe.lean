import SeriesCalc.Session.Decode
import SeriesCalc.Session.Encode
import SeriesCalc.Session.Halt
import SeriesCalc.Eval.Linalg

/-!
# Probes of matrices and values

A probe applies one operation of the matrix or container API to a given value and reports
the result, without a statement:

* `Probe.matrix`: the constructors (`from_rows`, `from_col_major`, `zeros`, `try_zeros`, ...)
  and the methods (`transpose`, `set`, `get`, `data`, ...) of matrices;
* `Probe.value`: the operations every value has (`copy_from`, `series_buf`, `operand`, ...)
  and those of bundles, lists and arrays. A failing array operation reports its error beside
  the unchanged array; an operation the value's kind lacks refuses the request.

Walking a matrix whose shape overflows a word (transposing, showing, reading or writing an
entry it does not store) ends the request (`Halt.check`).
-/

namespace SeriesCalc

namespace Probe

open Decode Halt

/-- A matrix from rows of equal length. -/
def ofRows (rows : List (List Float)) : Except EvalError Matrix :=
  let nc := (rows.head?.map List.length).getD 0
  match rows.find? (·.length != nc) with
  | some r => .error (Fault.nonConformable "matrix" (1, nc) (1, r.length) : EvalError)
  | none =>
    let m := Matrix.zeros rows.length nc
    .ok (rows.zipIdx.foldl (fun m (r, i) => r.zipIdx.foldl (fun m (x, j) => m.set i j x) m) m)

/-- A real matrix from its column-major entries; the shape's product is a word. -/
def ofColumnMajor (rows cols : Nat) (xs : Array Float) : Except EvalError Matrix :=
  if xs.size != Word.mul rows cols then
    .error (Fault.nonConformable "matrix" (rows, cols) (xs.size, 1) : EvalError)
  else .ok ⟨rows, cols, .real xs, none⟩

/-- Zeros, or an allocation failure when the shape is too large to hold. -/
def tryZeros (rows cols : Nat) : Except EvalError Matrix :=
  if Matrix.fits rows cols then .ok (Matrix.zeros rows cols)
  else .error (Fault.allocationFailure s!"{rows}x{cols} matrix" : EvalError)

/-- A complex number as a `[re, im]` pair. -/
def pair (z : Complex) : Json := .arr [Encode.num z.re, Encode.num z.im]

/-- What `data` reports: real entries or null, complex entries or null, every entry as a
pair, and the display text. -/
def data (m : Matrix) : Json :=
  let real := match m.entries with
    | .real xs => Encode.nums xs
    | .complex _ => .null
  let complex := match m.entries with
    | .real _ => .null
    | .complex zs => .arr (zs.toList.map pair)
  .obj [("real", real), ("complex", complex),
    ("at", .arr ((List.range m.size).map fun k => pair (m.elemComplex k))), ("display", .str m.display)]

/-- The matrix given as `value`. -/
def matrixArg (fuel : Nat) (j : Json) (key : String) : Except Halt Matrix := do
  match ← value fuel (← field j key) with
  | .matrix m => return m
  | v => refuse s!"matrix_api: {key} is a {v.kind.name}, not a matrix"

/-- A result matrix, or the error that stopped it. -/
def matrixResult (r : Except EvalError Matrix) : List (String × Json) :=
  match r with
  | .ok m => [("value", Encode.matrix m)]
  | .error e => Encode.evalError e

/-- Apply one matrix operation. -/
def matrix (fuel : Nat) (j : Json) : Except Halt (List (String × Json)) := do
  let op ← strField j "op"
  let given := matrixArg fuel j "value"
  let done := fun (m : Matrix) => matrixResult (.ok m)
  match op with
  | "from_rows" =>
    let rows ← list (list num) (← field j "rows")
    return matrixResult (ofRows rows)
  | "from_col_major" =>
    return matrixResult (ofColumnMajor (← natField j "rows") (← natField j "cols") (← nums (← field j "re")))
  | "zeros" =>
    let rows ← natField j "rows"
    let cols ← natField j "cols"
    allocate (Word.mul rows cols) 8
    return done (Matrix.zeros rows cols)
  | "try_zeros" => return matrixResult (tryZeros (← natField j "rows") (← natField j "cols"))
  | "filled" =>
    let rows ← natField j "rows"
    let cols ← natField j "cols"
    let x ← num (← field j "x")
    allocate (Word.mul rows cols) 8
    return done (Matrix.filled rows cols x)
  | "scalar" => return done (Matrix.ofScalar (← num (← field j "x")))
  | "identity" =>
    let n ← natField j "n"
    allocate (Word.mul n n) 8
    check (Linalg.identityOverrun n)
    return done (Linalg.identity n)
  | "column" => return done (Matrix.column (← nums (← field j "re")))
  | "row" => return done (Matrix.row (← nums (← field j "re")))
  | "transpose" =>
    let m ← given
    check m.transposeOverrun
    return done m.transpose
  | "real_part" => return done (← given).realPart
  | "imag_part" => return done (← given).imagPart
  | "promote" => return done (← given).promote
  | "demote" => return done (← given).demoteIfReal
  | "clear_meta" => return done (← given).clearMeta
  | "reshape" =>
    let m ← given
    let rows ← natField j "rows"
    let cols ← natField j "cols"
    if (← optField bool j "complex").getD false then
      allocate (Word.mul rows cols) 16
      return done (m.reshapeComplex rows cols)
    else
      allocate (Word.mul rows cols) 8
      return done (m.reshapeReal rows cols)
  | "copy_from" =>
    let _ ← given
    return done (← matrixArg fuel j "src")
  | "set" =>
    let m ← given
    let r ← natField j "r"
    let c ← natField j "c"
    if r ≥ m.rows || c ≥ m.cols then refuse "set out of range"
    let x ← num (← field j "x")
    let im ← optField num j "im"
    check (Overrun.at? m.entries.size (m.offset r c))
    match im with
    | some im => return done (m.setComplex r c ⟨x, im⟩)
    | none => return done (m.set r c x)
  | "get" =>
    let m ← given
    let r ← natField j "r"
    let c ← natField j "c"
    if r ≥ m.rows || c ≥ m.cols then refuse "get out of range"
    check (Overrun.at? m.entries.size (m.offset r c))
    let z := m.getComplex r c
    return [("get", .arr [Encode.num (m.get r c), Encode.num z.re, Encode.num z.im])]
  | "data" =>
    let m ← given
    check m.rowwiseOverrun
    return [("data", data m)]
  | _ => refuse s!"matrix_api: unknown op {op}"

/-- What an operand view of a value reports. -/
def operand (v : Value) : Json :=
  let o : Operand := v
  .obj [("kind", .str o.kind.name), ("scalar", Encode.opt Encode.num o.scalar?),
    ("scalar_like", .bool o.isScalarLike), ("str", Encode.opt .str v.str?),
    ("is_series", .bool (o.kind == .series)), ("is_matrix", .bool (o.kind == .matrix)),
    ("array_kind", Encode.opt (fun k => .str k.name) v.arrayKind?)]

/-- A refusal for an operation the value's kind lacks. -/
def notFor {α : Type} (op : String) (v : Value) : Except Halt α :=
  refuse s!"value_api: {op} does not apply to {v.kind.name}"

/-- A bundle operation: the fields it answers and the bundle after it. -/
def bundleOp (fuel : Nat) (j : Json) (op : String) (ms : Members) :
    Except Halt (List (String × Json) × Members) := do
  let other := fun (_ : Unit) => do value fuel (← field j "other")
  let otherBundle := fun (_ : Unit) => do
    match ← other () with
    | .bundle b => pure b
    | v => refuse s!"value_api: other is a {v.kind.name}, not a bundle"
  match op with
  | "get" =>
    let key ← strField j "key"
    return ([("got", Encode.opt Encode.value (ms.get? key)), ("contains", .bool (ms.contains key))], ms)
  | "insert" =>
    let key ← strField j "key"
    let (ms, old) := ms.insert key (← other ())
    return ([("old", Encode.opt Encode.value old)], ms)
  | "remove" =>
    let key ← strField j "key"
    let (ms, old) := ms.remove key
    return ([("old", Encode.opt Encode.value old)], ms)
  | "entry" =>
    let key ← strField j "key"
    let was := (ms.get? key).getD .null
    let (ms, _) := ms.insert key (← other ())
    return ([("was", Encode.value was)], ms)
  | "get_mut" =>
    let key ← strField j "key"
    let v ← other ()
    if ms.contains key then return ([], (ms.insert key v).1) else return ([], ms)
  | "clear" => return ([], [])
  | "union" | "absorb" => return ([], Members.union ms (← otherBundle ()))
  | _ => notFor op (.bundle ms)

/-- A list operation: the fields it answers and the list after it. -/
def listOp (fuel : Nat) (j : Json) (op : String) (ids : List Nat) :
    Except Halt (List (String × Json) × List Nat) := do
  let otherList := fun (_ : Unit) => do
    match ← value fuel (← field j "other") with
    | .list b => pure b
    | v => refuse s!"value_api: other is a {v.kind.name}, not a list"
  match op with
  | "union" => return ([], SeriesIds.union ids (← otherList ()))
  | "intersect" => return ([], SeriesIds.intersect ids (← otherList ()))
  | "difference" => return ([], SeriesIds.difference ids (← otherList ()))
  | "append" => return ([], ids ++ (← otherList ()))
  | "contains" => return ([("contains", .bool (ids.contains (← seriesId "bad id" (← field j "pos"))))], ids)
  | "set" =>
    let pos ← natField j "pos"
    match SeriesIds.set? ids pos (← seriesId "bad id" (← field j "id")) with
    | some ids => return ([("set", .bool true)], ids)
    | none => return ([("set", .bool false)], ids)
  | "push" => return ([], ids ++ [← seriesId "bad id" (← field j "pos")])
  | "clear" => return ([], [])
  | _ => notFor op (.list ids)

/-- An array operation: the fields it answers and the array after it; a refused change
reports its error and keeps the array. -/
def arrayOp (fuel : Nat) (j : Json) (op : String) (e : Elements) :
    Except Halt (List (String × Json) × Elements) := do
  let other := fun (_ : Unit) => do value fuel (← field j "other")
  let change := fun (r : Except Fault Elements) =>
    match r with
    | .ok e => (([] : List (String × Json)), e)
    | .error f => (Encode.evalError (f : EvalError), e)
  match op with
  | "push" => return change (e.push (← other ()))
  | "set" => return change (e.set (← natField j "pos") (← other ()))
  | "extend" =>
    match ← other () with
    | .array k xs => return change (e.extend ⟨k, xs⟩)
    | v => refuse s!"value_api: other is a {v.kind.name}, not an array"
  | "slice" =>
    let pos ← natField j "pos"
    let hi ← natField j "hi"
    if pos > hi || hi ≥ e.items.length then refuse "slice out of range"
    return ([], e.slice pos hi)
  | "get" => return ([("got", Encode.opt Encode.value (e.items[← natField j "pos"]?))], e)
  | "get_mut" =>
    let pos ← natField j "pos"
    let v ← other ()
    return ([], { e with items := e.items.set pos v })
  | "clear" => return ([], { e with items := [] })
  | "empty_element" => return ([("empty", Encode.opt (fun k => Encode.value k.emptyElement) e.kind)], e)
  | _ => notFor op e.toValue

/-- Apply one value operation; the answer holds its fields, the value after it, and what
its accessors report. -/
def value (fuel : Nat) (j : Json) : Except Halt (List (String × Json)) := do
  let op ← strField j "op"
  let v ← Decode.value fuel (← field j "value")
  let other := fun (_ : Unit) => do Decode.value fuel (← field j "other")
  let (fields, after) ← match op, v with
    | "copy_from", _ | "copy_operand", _ => do pure ([], ← other ())
    | "to_value", _ => pure ([], v)
    | "set_scalar", _ => do pure ([], .scalar (← num (← field j "x")))
    | "series_buf", _ => do
      let n ← natField j "n"
      allocate n 8
      pure ([], .series (Array.replicate n NA))
    | "string_buf", _ => do pure ([], .str (← strField j "key"))
    | "list_buf", _ => pure ([], .list [])
    | "operand", _ => pure ([("operand", operand v)], v)
    | _, .bundle ms => do
      let (fs, ms) ← bundleOp fuel j op ms
      pure (fs, .bundle ms)
    | _, .list ids => do
      let (fs, ids) ← listOp fuel j op ids
      pure (fs, .list ids)
    | _, .array k xs => do
      let (fs, e) ← arrayOp fuel j op ⟨k, xs⟩
      pure (fs, e.toValue)
    | _, _ => notFor op v
  check after.displayOverrun
  return fields ++ [("value", Encode.value after), ("describe", .obj (Encode.describe after))]

end Probe

end SeriesCalc
