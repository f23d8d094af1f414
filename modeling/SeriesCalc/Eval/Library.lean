import SeriesCalc.Eval.Scratch
import SeriesCalc.Eval.Linalg

/-!
# The builtin library

Twenty-seven builtins: constructors (`ones`, `zeros`, `I`, `seq`, `mshape`, `complex`),
shape queries (`rows`, `cols`, `nelem`, `strlen`, `inbundle`, `typestr`), elementwise math
(`sqrt`, `exp`, `log`, `abs`, `missing`, `ok`), reductions (`sum`, `mean`, `min`, `max`) and
matrix helpers (`transp`, `inv`, `det`, `real`, `imag`).

A call checks its arguments against the builtin's `Signature`: the arity, then the kind of
each argument against an `ArgMask` (positions past the listed masks use the last one). A
builtin reports failure as a `Refusal`, which becomes an evaluation error naming it.

Elementwise math works over scalars, the sample of a series (NA elsewhere) and real
matrices; `sqrt` and `log` outside their domain, and `exp` overflowing, give NA with a
warning. Reductions run over a scalar, the non-missing sample values of a series, or every
element of a real matrix; nothing to reduce gives NA, and `min`/`max` of anything with an NA
give NA.
-/

namespace SeriesCalc

/-- The kinds accepted at an argument position. -/
inductive ArgMask where
  | scalar
  | matrix
  | string
  | bundle
  | numeric
  | any
deriving DecidableEq, BEq, Inhabited

namespace ArgMask

/-- Every kind, in flag order. -/
def allKinds : List ValueKind := [.scalar, .series, .matrix, .str, .list, .bundle, .array, .null]

def kinds : ArgMask → List ValueKind
  | .scalar => [.scalar]
  | .matrix => [.matrix]
  | .string => [.str]
  | .bundle => [.bundle]
  | .numeric => [.scalar, .series, .matrix]
  | .any => allKinds

def admits (m : ArgMask) (k : ValueKind) : Bool := m.kinds.contains k

/-- The accepted kinds as an error message lists them: `scalar or series or matrix`. -/
def describe (m : ArgMask) : String := " or ".intercalate (m.kinds.map ValueKind.name)

/-- Debug text: the flag names, `ArgMask(SCALAR | SERIES | MATRIX)`. -/
def debugText (m : ArgMask) : String :=
  "ArgMask(" ++ " | ".intercalate (m.kinds.map fun k => k.name.toUpper) ++ ")"

end ArgMask

/-- Arity and argument kinds of a builtin. -/
structure Signature where
  min : Nat
  max : Nat
  args : List ArgMask
deriving Inhabited

namespace Signature

/-- Exactly the listed arguments. -/
def fixed (args : List ArgMask) : Signature := ⟨args.length, args.length, args⟩

/-- The mask at a position: the listed one, else the last, else anything. -/
def mask (s : Signature) (pos : Nat) : ArgMask :=
  match s.args[pos]? with
  | some m => m
  | none => s.args.getLast?.getD .any

/-- Check the kinds of evaluated arguments. -/
def check (s : Signature) (name : String) (kinds : List ValueKind) : Except EvalError Unit :=
  if kinds.length < s.min || kinds.length > s.max then
    .error (Fault.arityMismatch name s.min s.max kinds.length : EvalError)
  else
    kinds.zipIdx.forM fun (k, i) =>
      let m := s.mask i
      if m.admits k then .ok ()
      else .error (Fault.typeMismatch (m.describe ++ " for argument " ++ toString (i + 1) ++ " of " ++ name) k : EvalError)

def debugText (s : Signature) : String :=
  "Signature \x7b min: " ++ toString s.min ++ ", max: " ++ toString s.max ++ ", args: [" ++
    ", ".intercalate (s.args.map ArgMask.debugText) ++ "] \x7d"

end Signature

/-- Why a builtin refused its arguments. -/
inductive Refusal where
  | insufficientArgs
  | nonConformable (left right : Nat × Nat)
  | domain (what : String)
  | alloc
  | invalid (message : String)
  /-- A cause that passes through unchanged, such as a stop. -/
  | fault (f : Fault)

/-- The evaluation error of a builtin's refusal. -/
def Refusal.toError (name : String) : Refusal → EvalError
  | .insufficientArgs => (Fault.custom (name ++ ": insufficient arguments") : EvalError)
  | .nonConformable l r => (Fault.nonConformable name l r : EvalError)
  | .domain what => (Fault.domain (name ++ ": " ++ what) : EvalError)
  | .alloc => (Fault.allocationFailure ("result of " ++ name) : EvalError)
  | .invalid m => (Fault.custom (name ++ ": " ++ m) : EvalError)
  | .fault f => (f : EvalError)

/-- A builtin of the standard library. -/
inductive Builtin where
  | ones | zeros | identity | seq | mshape | complex
  | rows | cols | nelem | strlen | inbundle | typestr
  | sqrt | exp | log | abs | missing | ok
  | sum | mean | min | max
  | transp | inv | det | real | imag
deriving DecidableEq, BEq, Inhabited

namespace Builtin

/-- The library, in registration order. -/
def all : List Builtin :=
  [.ones, .zeros, .identity, .seq, .mshape, .complex, .rows, .cols, .nelem, .strlen, .inbundle,
   .typestr, .sqrt, .exp, .log, .abs, .missing, .ok, .sum, .mean, .min, .max, .transp, .inv,
   .det, .real, .imag]

def name : Builtin → String
  | .ones => "ones" | .zeros => "zeros" | .identity => "I" | .seq => "seq" | .mshape => "mshape"
  | .complex => "complex" | .rows => "rows" | .cols => "cols" | .nelem => "nelem"
  | .strlen => "strlen" | .inbundle => "inbundle" | .typestr => "typestr" | .sqrt => "sqrt"
  | .exp => "exp" | .log => "log" | .abs => "abs" | .missing => "missing" | .ok => "ok"
  | .sum => "sum" | .mean => "mean" | .min => "min" | .max => "max" | .transp => "transp"
  | .inv => "inv" | .det => "det" | .real => "real" | .imag => "imag"

def ofName? (s : String) : Option Builtin := all.find? (·.name == s)

/-- The names, sorted. -/
def sortedNames : List String := (all.map name).mergeSort (fun a b => decide (a ≤ b))

def signature : Builtin → Signature
  | .ones | .zeros => ⟨1, 2, [.scalar]⟩
  | .identity => .fixed [.scalar]
  | .seq => .fixed [.scalar, .scalar]
  | .mshape => .fixed [.matrix, .scalar, .scalar]
  | .complex => .fixed [.numeric, .numeric]
  | .rows | .cols | .nelem | .typestr => .fixed [.any]
  | .strlen => .fixed [.string]
  | .inbundle => .fixed [.bundle, .string]
  | .sqrt | .exp | .log | .abs | .missing | .ok | .sum | .mean | .min | .max => .fixed [.numeric]
  | .transp | .inv | .det | .real | .imag => .fixed [.matrix]

/-- Debug text of a registered builtin. -/
def debugText (b : Builtin) : String :=
  "Builtin \x7b signature: " ++ b.signature.debugText ++ ", .. \x7d"

end Builtin

namespace Library

/-- A builtin body: it writes the cell or refuses. -/
abbrev BodyM := ExceptT Refusal (StateM Scratch)

def refuse {α : Type} (r : Refusal) : BodyM α := throw r

def put (v : Value) : BodyM Unit := modify fun s => { s with cell := v }

def warned {α : Type} (w : Warned α) : BodyM α :=
  modifyGet fun s => let (a, log) := w.run s.log; (a, { s with log })

/-- A result that may fail with a cause, which passes through unchanged. -/
def stored {α : Type} (r : Except Fault α) : BodyM α :=
  match r with
  | .ok a => pure a
  | .error f => refuse (.fault f)

/-- A whole non-negative dimension. -/
def dim (o : Operand) : BodyM Nat :=
  match o.scalar? with
  | some x =>
    if x ≥ 0 && x.isWhole then pure x.toCount
    else refuse (.domain ("invalid dimension " ++ Decimal.Float.positional x))
  | none => refuse (.invalid "expected a dimension")

/-- A fresh real matrix of the requested shape; one too large leaves a matrix in the cell
and refuses. -/
def allocate (rows cols : Nat) (fill : Float) : BodyM Matrix :=
  if rows ≥ Nat.pow 2 64 || cols ≥ Nat.pow 2 64 || rows * cols ≥ Nat.pow 2 64 || !Matrix.fits rows cols then do
    put (.matrix Matrix.empty)
    refuse .alloc
  else pure (Matrix.filled rows cols fill)

def filled (args : List Operand) (x : Float) : BodyM Unit := do
  let r ← dim (args.getD 0 default)
  let c ← match args[1]? with
    | some o => dim o
    | none => pure 1
  put (.matrix (← allocate r c x))

def identity (args : List Operand) : BodyM Unit := do
  let n ← dim (args.getD 0 default)
  let m ← allocate n n 0
  put (.matrix ((List.range n).foldl (fun m i => m.set i i 1) m))

def seq (args : List Operand) : BodyM Unit := do
  match (args.getD 0 default).scalar?, (args.getD 1 default).scalar? with
  | some a, some b =>
    if !a.isWhole || !b.isWhole then refuse (.domain "seq bounds must be integers")
    else
      let n := (b - a).abs.toCount + 1
      let step : Float := if b ≥ a then 1 else -1
      let _ ← allocate 1 n 0
      put (.matrix (Matrix.row ((List.range n).toArray.map fun k => a + step * k.toFloat)))
  | _, _ => refuse .insufficientArgs

def mshape (args : List Operand) : BodyM Unit := do
  match (args.getD 0 default).value with
  | .matrix src =>
    let r ← dim (args.getD 1 default)
    let c ← dim (args.getD 2 default)
    if Word.mul r c != src.size then refuse (.nonConformable src.shape (r, c))
    else put (.matrix { src with rows := r, cols := c, span := none })
  | _ => refuse .insufficientArgs

/-- A matrix argument: a matrix, or a scalar as 1×1; a series is refused. -/
def matrixArg (o : Operand) : BodyM Matrix :=
  match o.value with
  | .matrix m => pure m
  | .scalar x => pure (Matrix.ofScalar x)
  | _ => refuse (.invalid "expected a matrix")

def complex (args : List Operand) : BodyM Unit := do
  let re ← matrixArg (args.getD 0 default)
  let im ← matrixArg (args.getD 1 default)
  let shape := if re.isScalar then im.shape else re.shape
  if [re, im].any fun m => !m.isScalar && m.shape != shape then
    refuse (.nonConformable re.shape im.shape)
  else
    let pick := fun (m : Matrix) (k : Nat) => if m.isScalar then m.elem 0 else m.elem k
    put (.matrix ⟨shape.1, shape.2,
      .complex ((List.range (Word.mul shape.1 shape.2)).toArray.map fun k => ⟨pick re k, pick im k⟩), none⟩)

def rowsOf (env : OpEnv) (o : Operand) : BodyM Unit :=
  match o.value with
  | .matrix m => put (.scalar m.rows.toFloat)
  | .scalar _ => put (.scalar 1)
  | .series _ => put (.scalar env.ds.sampleLen.toFloat)
  | _ => refuse (.invalid "expected a matrix")

def colsOf (o : Operand) : BodyM Unit :=
  match o.value with
  | .matrix m => put (.scalar m.cols.toFloat)
  | .scalar _ | .series _ => put (.scalar 1)
  | _ => refuse (.invalid "expected a matrix")

def nelem (o : Operand) : BodyM Unit :=
  put (.scalar (match o.value with
    | .null => 0
    | .matrix m => m.size.toFloat
    | .list ids => ids.length.toFloat
    | .bundle ms => ms.length.toFloat
    | .array _ items => items.length.toFloat
    | .str s => s.length.toFloat
    | .scalar _ | .series _ => 1))

/-- Apply `f` to a scalar, over the sample of a series, or to every entry of a real matrix. -/
def map (env : OpEnv) (o : Operand) (f : Float → Warned Float) : BodyM Unit :=
  match o.value with
  | .scalar x => do put (.scalar (← warned (f x)))
  | .series xs => do
    stored (sampleStored env.ds xs)
    put (.series (← warned (fillSeries env.ds fun t => f (xs.getD t NA))))
  | .matrix m =>
    match m.entries with
    | .real xs => do
      let ys ← warned (xs.mapM f)
      put (.matrix ⟨m.rows, m.cols, .real ys, none⟩)
    | .complex _ => refuse (.invalid "complex argument not supported")
  | _ => refuse .insufficientArgs

/-- `f x` where `ok`, NA with a domain warning elsewhere; NA stays NA. -/
def checked (what : String) (ok : Float → Bool) (f : Float → Float) (x : Float) : Warned Float :=
  if x.isNaN then pure NA
  else if ok x then pure (f x)
  else do Warned.note (some (.domain what)); pure NA

def expChecked (x : Float) : Warned Float :=
  let y := Float.exp x
  if y.isInf then do Warned.note (some .nonFinite); pure NA else pure y

/-- The values a reduction runs over. -/
def reduceInput (env : OpEnv) (o : Operand) : BodyM (List Float) :=
  match o.value with
  | .scalar x => pure [x]
  | .series xs => do return (← stored (sampleValues env.ds xs)).toList.filter fun x => !x.isNaN
  | .matrix m =>
    match m.entries with
    | .real xs => pure xs.toList
    | .complex _ => refuse (.invalid "complex argument not supported")
  | _ => refuse .insufficientArgs

/-- A float sum from `-0`, left to right. -/
def total (xs : List Float) : Float := xs.foldl (· + ·) (-0)

/-- The least or greatest value; NA when any value is NA or none is given. Between two equal
values the later one is kept, which decides between `0` and `-0`. -/
def extremum (better : Float → Float → Bool) (xs : List Float) : Float :=
  if xs.any Float.isNaN then NA
  else match xs with
    | [] => NA
    | x :: rest => rest.foldl (fun acc y => if better acc y then acc else y) x

/-- A square matrix, or a refusal naming the transposed shape. -/
def square (m : Matrix) : BodyM Unit :=
  if m.isSquare then pure () else refuse (.nonConformable m.shape (m.cols, m.rows))

/-- Run a builtin on checked arguments. -/
def body (env : OpEnv) (b : Builtin) (args : List Operand) : BodyM Unit := do
  let a0 := args.getD 0 default
  match b with
  | .ones => filled args 1
  | .zeros => filled args 0
  | .identity => identity args
  | .seq => seq args
  | .mshape => mshape args
  | .complex => complex args
  | .rows => rowsOf env a0
  | .cols => colsOf a0
  | .nelem => nelem a0
  | .strlen => put (.scalar ((a0.value.str?.map String.length).getD 0).toFloat)
  | .inbundle =>
    match a0.value, (args.getD 1 default).value.str? with
    | .bundle ms, some key => put (.scalar (ofBool (Members.contains ms key)))
    | _, _ => refuse .insufficientArgs
  | .typestr => put (.str a0.kind.name)
  | .sqrt => map env a0 (checked "sqrt" (· ≥ 0) Float.sqrt)
  | .exp => map env a0 expChecked
  | .log => map env a0 (checked "log" (· > 0) Float.log)
  | .abs => map env a0 fun x => pure x.abs
  | .missing => map env a0 fun x => pure (ofBool x.isNaN)
  | .ok => map env a0 fun x => pure (ofBool !x.isNaN)
  | .sum => do
    let xs ← reduceInput env a0
    put (.scalar (if xs.isEmpty then NA else total xs))
  | .mean => do
    let xs ← reduceInput env a0
    put (.scalar (if xs.isEmpty then NA else total xs / xs.length.toFloat))
  | .min => do put (.scalar (extremum (· < ·) (← reduceInput env a0)))
  | .max => do put (.scalar (extremum (· > ·) (← reduceInput env a0)))
  | .transp => do
    let m ← matrixArg a0
    stored (Fault.check m.transposeOverrun)
    put (.matrix m.transpose)
  | .inv => do
    let m ← matrixArg a0
    square m
    match Linalg.inverse m with
    | .ok r => put (.matrix r)
    | .error e => refuse (if e.isAbort then .fault e.fault else .domain e.message)
  | .det => do
    let m ← matrixArg a0
    square m
    match Linalg.determinant m with
    | .ok d => put (.scalar d)
    | .error e => refuse (if e.isAbort then .fault e.fault else .domain e.message)
  | .real => do put (.matrix (← matrixArg a0).realPart)
  | .imag => do put (.matrix (← matrixArg a0).imagPart)

end Library

/-- Call a builtin: check the arguments, then run it, naming it in any error. -/
def Builtin.call (env : OpEnv) (b : Builtin) (args : List Operand) : OpM Unit := do
  OpM.lift (b.signature.check b.name (args.map Operand.kind))
  let r ← ExceptT.lift (Library.body env b args).run
  match r with
  | .ok () => pure ()
  | .error refusal => throw (refusal.toError b.name)

end SeriesCalc
