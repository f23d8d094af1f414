import SeriesCalc.Eval.Kernel
import SeriesCalc.Value.Basic
import SeriesCalc.Data.Dataset
import SeriesCalc.Decimal.Layout

/-!
# Subscripts and selections

Subscripts are 1-based and ranges inclusive. On a matrix:

* `M[i,j]`, `M[i:j,]`, `M[,k]` select rows and columns;
* one subscript is a linear (column-major) index; the result of a row vector stays a row;
* a 0/1 matrix of exactly the container's shape (and more than one entry) is a mask, any
  other matrix subscript is a vector of indices;
* `diag`, `upper` and `lower` select the diagonal and the strict upper or lower triangle as a
  column; `real` and `imag` select the parts of a complex matrix.

`Selection.extract` reads a selection and `Selection.splice` writes a block, or a broadcast
1×1 block, into it. Offsets are words; in a matrix whose shape overflows a word some of them
are past the stored entries, and `Selection.overrun` finds the first one a read or write
reaches.
-/

namespace SeriesCalc

/-- An evaluated subscript. -/
inductive Subscript where
  | all
  | selector (s : Selector)
  | num (x : Float)
  | range (lo hi : Float)
  | str (s : String)
  | matrix (m : Matrix)
deriving Inhabited

/-- The kind a subscript reports when it is refused. -/
def Subscript.kind : Subscript → ValueKind
  | .str _ => .str
  | .matrix _ => .matrix
  | .num _ => .scalar
  | _ => .null

/-- A 1-based index as a 0-based position below `len`. -/
def position (x : Float) (len : Nat) : Except EvalError Nat :=
  if !x.isWhole then .error (Fault.domain ("invalid index " ++ Decimal.Float.positional x) : EvalError)
  else if x < 1 || x > len.toFloat then .error (Fault.indexOutOfBounds x.toInt64Sat len : EvalError)
  else .ok (x.toCount - 1)

/-- A 1-based inclusive range as 0-based bounds. -/
def positionRange (lo hi : Float) (len : Nat) : Except EvalError (Nat × Nat) := do
  let lo ← position lo len
  let hi ← position hi len
  if hi < lo then throw (Fault.domain s!"empty range {lo + 1}:{hi + 1}" : EvalError)
  return (lo, hi)

/-- Positions `lo..hi`. -/
def spanPositions (lo hi : Nat) : List Nat := (List.range (hi + 1)).drop lo

/-- The positions a matrix of indices names. -/
def indexVector (m : Matrix) (len : Nat) : Except EvalError (List Nat) :=
  if !m.isVector && !m.isEmpty then .error (Fault.typeMismatch "index vector" .matrix : EvalError)
  else (List.range m.size).mapM fun k => position (m.elem k) len

/-- Positions are held eight bytes each: `n` of them must fit (`Fault.allocation?`). -/
def held (n : Nat) : Except EvalError Unit :=
  match Fault.allocation? n 8 with
  | some f => .error (f : EvalError)
  | none => .ok ()

/-- The positions a subscript names along one dimension of length `len`. -/
def dimension (arg : Subscript) (len : Nat) : Except EvalError (List Nat) :=
  match arg with
  | .all => do
    held len
    return List.range len
  | .num x => do return [← position x len]
  | .range lo hi => do
    let (lo, hi) ← positionRange lo hi len
    held (hi + 1 - lo)
    return spanPositions lo hi
  | .matrix m => indexVector m len
  | other => .error (Fault.typeMismatch "row or column index" other.kind : EvalError)

/-- The part of a complex matrix that `real` or `imag` addresses. -/
inductive Part where
  | real
  | imag
deriving DecidableEq, BEq, Inhabited

/-- A resolved matrix selection. -/
inductive Selection where
  /-- Column-major offsets into the container and the shape of the block they form;
  `single` when every subscript was one index. -/
  | block (offsets : List Nat) (rows cols : Nat) (single : Bool)
  | part (p : Part)
deriving Inhabited

namespace Selection

/-- Offsets of the diagonal or a strict triangle, column-major. -/
def triangle (s : Selector) (nr nc : Nat) : List Nat :=
  (List.range nc).flatMap fun j => ((List.range nr).filter fun i =>
    match s with
    | .diag => i == j
    | .upper => i < j
    | .lower => i > j
    | _ => false).map fun i => j * nr + i

/-- One subscript: a mask or a linear index. -/
def linear (arg : Subscript) (nr nc : Nat) : Except EvalError Selection := do
  let len := Word.mul nr nc
  let offsets ← match arg with
    | .matrix m =>
      if m.shape == (nr, nc) && m.isZeroOne && len > 1 then
        pure ((List.range len).filter fun k => m.elem k == 1)
      else dimension arg len
    | other => dimension other len
  let n := offsets.length
  let (rows, cols) := if nr == 1 && nc > 1 then (1, n) else (n, 1)
  return .block offsets rows cols (match arg with | .num _ => true | _ => false)

/-- Resolve subscripts against a matrix of shape `(nr, nc)`. -/
def resolve (args : List Subscript) (shape : Nat × Nat) : Except EvalError Selection :=
  let (nr, nc) := shape
  match args with
  | [.selector .real] => .ok (.part .real)
  | [.selector .imag] => .ok (.part .imag)
  | [.selector s] =>
    let offsets := triangle s nr nc
    .ok (.block offsets offsets.length 1 false)
  | [arg] => linear arg nr nc
  | [r, c] => do
    let rows ← dimension r nr
    let cols ← dimension c nc
    let single := match r, c with | .num _, .num _ => true | _, _ => false
    return .block (cols.flatMap fun j => rows.map fun i => Word.add (Word.mul j nr) i) rows.length cols.length single
  | _ => .error (Fault.domain s!"matrix takes 1 or 2 subscripts, got {args.length}" : EvalError)

/-- The first offset of a block that is past the `len` stored entries of its container. -/
def overrun (sel : Selection) (len : Nat) : Option Overrun :=
  match sel with
  | .block offsets .. => (offsets.find? (· ≥ len)).map fun k => ⟨len, k⟩
  | .part _ => none

/-- Read a selection out of `m`; a block of a complex matrix stays complex. -/
def extract (m : Matrix) : Selection → Matrix
  | .part .real => m.realPart
  | .part .imag => m.imagPart
  | .block offsets rows cols _ =>
    let out := Matrix.zeros rows cols
    let out := if m.isComplex then out.promote else out
    (offsets.zipIdx.foldl fun o (src, k) => o.setAt k (m.elemComplex src)) out

/-- Write `block`, or its one entry everywhere, into the selected positions of `m`. -/
def splice (m : Matrix) (sel : Selection) (block : Matrix) : Except EvalError Matrix :=
  match sel with
  | .part which =>
    if block.shape != m.shape && !block.isScalar then
      .error (Fault.nonConformable "=" m.shape block.shape : EvalError)
    else
      let m := (List.range m.size).foldl (fun m k =>
        let z := m.elemComplex k
        let x := block.elem (if block.isScalar then 0 else k)
        m.setAt k (match which with | .real => ⟨x, z.im⟩ | .imag => ⟨z.re, x⟩)) m
      .ok m.demoteIfReal
  | .block offsets rows cols _ =>
    let broadcast := block.isScalar
    if !broadcast && block.size != offsets.length then
      .error (Fault.nonConformable "=" (rows, cols) block.shape : EvalError)
    else if let some o := sel.overrun m.entries.size then .error (Fault.overrun o : EvalError)
    else
      .ok ((offsets.zipIdx.foldl fun m (dst, k) =>
        m.setAt dst (block.elemComplex (if broadcast then 0 else k))) m)

end Selection

/-- Characters `lo..hi` (0-based) of `s`. -/
def substring (s : String) (lo hi : Nat) : String :=
  String.ofList ((s.toList.drop lo).take (hi + 1 - lo))

/-- `m[subs]`: a scalar for one index into a real matrix, else a matrix. -/
def matrixSelect (m : Matrix) (subs : List Subscript) : Except EvalError Value := do
  let sel ← Selection.resolve subs m.shape
  Fault.raise (Fault.check (sel.overrun m.entries.size))
  let block := Selection.extract m sel
  match sel with
  | .block _ _ _ true => if !block.isComplex then return .scalar (block.elem 0) else return .matrix block
  | _ => return .matrix block

/-- A list whose ids no longer all name dataset series. -/
def isStaleList (v : Value) (ds : Dataset) : Bool :=
  match v with
  | .list ids => ids.any (· ≥ ds.series.size)
  | _ => false

/-- `base[subs]` for a value that is not stored anywhere. -/
def indexValue (base : Value) (subs : List Subscript) (ds : Dataset) : Except EvalError Value :=
  match base with
  | .series xs => do
    let t ← match subs with
      | [.num i] => position i xs.size
      | [.str label] =>
        match ds.findObs label with
        | some t => pure t
        | none => throw (Fault.undefinedMember label : EvalError)
      | _ => throw (Fault.typeMismatch "observation index" .series : EvalError)
    return .scalar (← Fault.raise (storedAt xs t))
  | .scalar x => matrixSelect (Matrix.ofScalar x) subs
  | .matrix m => matrixSelect m subs
  | .list ids =>
    match subs with
    | [.range lo hi] => do
      let (lo, hi) ← positionRange lo hi ids.length
      return .list ((ids.drop lo).take (hi + 1 - lo))
    | _ => .error (Fault.typeMismatch "list index" .list : EvalError)
  | .str s => do
    let n := s.length
    let (lo, hi) ← match subs with
      | [.num i] => do
        let p ← position i n
        pure (p, p)
      | [.range lo hi] => positionRange lo hi n
      | _ => throw (Fault.typeMismatch "string index" .str : EvalError)
    return .str (substring s lo hi)
  | .array k items =>
    match subs with
    | [.num i] => do
      let p ← position i items.length
      return items.getD p .null
    | [.range lo hi] => do
      let (lo, hi) ← positionRange lo hi items.length
      return (Elements.slice ⟨k, items⟩ lo hi).toValue
    | _ => .error (Fault.typeMismatch "array index" .array : EvalError)
  | .bundle ms =>
    match subs with
    | [.str key] =>
      match Members.get? ms key with
      | some v =>
        match v with
        | .list ids =>
          if isStaleList v ds then .ok (.matrix (Matrix.column (ids.map Nat.toFloat).toArray))
          else .ok v
        | _ => .ok v
      | none => .error (Fault.undefinedMember key : EvalError)
    | _ => .error (Fault.typeMismatch "string key" .bundle : EvalError)
  | .null => .error (Fault.typeMismatch "indexable value" .null : EvalError)

end SeriesCalc
