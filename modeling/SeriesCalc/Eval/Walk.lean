import SeriesCalc.Eval.Machine
import SeriesCalc.Eval.Binary
import SeriesCalc.Eval.Select
import SeriesCalc.Eval.Convert
import SeriesCalc.Eval.Library

/-!
# Walking a tree

`evalNode pos` evaluates the subtree at `pos` and returns the cell holding its value.
Children are evaluated first, left to right, then the position's own cell is written.

* Literals keep their cell; names bind the position's cell to a variable (first) or a
  dataset series.
* `&&` and `||` skip their right side when a scalar left side decides: the position then
  shares the left cell if it already holds the result.
* A conditional with a scalar condition evaluates one branch and shares its cell; an NA
  condition gives NA. A series condition that is true (or false) over the whole sample
  evaluates one branch only; otherwise the branches combine per observation. A matrix
  condition combines both branches per element.
* `L[i]` on a list is the `i`-th series itself; a member or element of a stored variable
  is a live alias of it (`Handle.member`), so a later write through it lands in the
  variable.
* A call runs a builtin, or else a user function: the function's copy is checked out of the
  table, arguments are bound (a pointer `&x` lends the caller's variable, or a copy of a
  dataset series), the body runs one level deeper against the call's locals, lent values are
  handed back, and the copy is checked back in.

The walk is well founded: a node's children come before it in the forest, and a position
that breaks this order is refused.
-/

namespace SeriesCalc

namespace Walk

open EvalM

/-- The refusal of a child that does not come before its parent. -/
def malformed : EvalError := (Fault.custom "malformed tree" : EvalError)

/-- Run a step, catching its failure; a stop is not caught. -/
def attempt {α : Type} (x : EvalM α) : EvalM (Except EvalError α) :=
  tryCatch (Except.ok <$> x) fun e => if e.isAbort then throw e else pure (.error e)

/-- A name: a variable first, then a dataset series. -/
def ident (pos : Nat) (name : String) : EvalM Nat := do
  let ws ← workspace
  match ws.vars.lookup name with
  | some vid => bindCell pos (.var vid) ((ws.vars.get? vid).map Value.kind |>.getD .null) .leaf
  | none =>
    match ws.dataset.lookup name with
    | some sid => bindCell pos (.series sid) .series .leaf
    | none => fail (.undefinedSymbol name)

/-- `l && r`, `l || r`. -/
def logical (child : Nat → EvalM Nat) (pos : Nat) (op : BinaryOp) (l r : Nat) : EvalM Nat := do
  let a ← child l
  let decided : Option (Float × Float) := match (← operand a).value with
    | .scalar x =>
      match op, truth? x with
      | .and, some false => some (x, 0)
      | .or, some true => some (x, 1)
      | _, _ => none
    | _ => none
  match decided with
  | some (x, result) =>
    if x == result then share pos a
    else compute pos fun _ => OpM.put (.scalar result)
  | none =>
    let b ← child r
    compute pos fun env => do Binary.apply env op (← OpM.read env a) (← OpM.read env b)

/-- A branch of a series conditional as a column. -/
def branchColumn (env : OpEnv) (id? : Option Nat) : OpM (Option Column) :=
  match id? with
  | none => pure none
  | some id => do
    let o ← OpM.read env id
    match Column.of? o env.ds with
    | some c => pure (some c)
    | none => OpM.fail (.typeMismatch "series or scalar branch" o.kind)

/-- A branch of a matrix conditional: a scalar, or a matrix of the condition's shape. -/
def branchMatrix (o : Operand) (cond : Matrix) : Except EvalError Matrix :=
  let m? := match o.value with
    | .scalar x => some (Matrix.ofScalar x)
    | .matrix m => some m
    | _ => none
  match m? with
  | none => .error (Fault.typeMismatch "matrix or scalar branch" o.kind : EvalError)
  | some m =>
    if !m.isScalar && m.shape != cond.shape then .error (Fault.nonConformable "?:" cond.shape m.shape : EvalError)
    else .ok m

/-- Pick per element: `a` where the condition is true, `b` where false, NA where NA. -/
def selectMatrix (cond a b : Matrix) : Matrix :=
  let pick := fun (m : Matrix) (k : Nat) => m.elemComplex (if m.isScalar then 0 else k)
  let offsets := List.range cond.size
  let complex := offsets.any fun k => match truth? (cond.elem k) with
    | some true => a.isComplex
    | some false => b.isComplex
    | none => false
  let out := Matrix.zeros cond.rows cond.cols
  let out := if complex then out.promote else out
  offsets.foldl (fun out k =>
    out.setAt k (match truth? (cond.elem k) with
      | some true => pick a k
      | some false => pick b k
      | none => ⟨NA, 0⟩)) out

/-- The series a series condition combines: where the condition is true the then branch's
column, where false the else branch's, NA where the condition is NA or a branch is missing, and
NA outside the sample. -/
def mixedSeries (ds : Dataset) (xs : Array Float) (ca cb : Option Column) : Array Float :=
  fillSeriesPure ds fun t =>
    match truth? (xs.getD t NA) with
    | some true => (ca.map (·.at t)).getD NA
    | some false => (cb.map (·.at t)).getD NA
    | none => NA

/-- The combining operator: read the condition's series and the branches' columns, check that the
sample is stored, and put the combined series. -/
def mixedOp (c : Nat) (a b : Option Nat) (env : OpEnv) : OpM Unit := do
  let cond ← OpM.read env c
  let xs ← match cond.value with
    | .series xs => pure xs
    | _ => OpM.fail (.typeMismatch "series condition" cond.kind)
  let ca ← branchColumn env a
  let cb ← branchColumn env b
  OpM.liftFault (sampleStored env.ds xs)
  OpM.put (.series (mixedSeries env.ds xs ca cb))

/-- A conditional whose condition is a series. -/
def seriesConditional (child : Nat → EvalM Nat) (pos c : Nat) (sample : Array Float)
    (thenB elseB : Nat) : EvalM Nat := do
  let ws ← workspace
  let anyTrue := sample.any fun x => truth? x == some true
  let anyFalse := sample.any fun x => truth? x == some false
  let anyNA := sample.any Float.isNaN
  let shareable := !anyNA && ws.dataset.sampleLen == ws.dataset.nobs
  let combine := fun (a b : Option Nat) => compute pos (mixedOp c a b)
  let one := fun (branch : Nat) (isThen : Bool) => do
    let id ← child branch
    let isSeries := match (← operand id).value with
      | .series _ => true
      | _ => false
    if shareable && isSeries then share pos id
    else if isThen then combine (some id) none else combine none (some id)
  match anyTrue, anyFalse with
  | false, false => compute pos fun env => OpM.put (.series (fillSeriesPure env.ds fun _ => NA))
  | true, false => one thenB true
  | false, true => one elseB false
  | true, true => do
    let a ← child thenB
    let b ← child elseB
    combine (some a) (some b)

/-- `c ? a : b`. -/
def conditional (child : Nat → EvalM Nat) (pos cond thenB elseB : Nat) : EvalM Nat := do
  let c ← child cond
  let o ← operand c
  if o.isScalarLike then
    match o.scalar?.bind truth? with
    | some true => do share pos (← child thenB)
    | some false => do share pos (← child elseB)
    | none => compute pos fun _ => OpM.put (.scalar NA)
  else
    match o.value with
    | .series xs => do
      let ws ← workspace
      let sample ← lift (Fault.raise (sampleValues ws.dataset xs))
      seriesConditional child pos c sample thenB elseB
    | .matrix _ => do
      let a ← child thenB
      let b ← child elseB
      compute pos fun env => do
        let cond ← OpM.read env c
        let cm ← match cond.value with
          | .matrix m => pure m
          | _ => OpM.fail (.typeMismatch "matrix condition" cond.kind)
        let ma ← OpM.lift (branchMatrix (← OpM.read env a) cm)
        let mb ← OpM.lift (branchMatrix (← OpM.read env b) cm)
        OpM.put (.matrix (selectMatrix cm ma mb))
    | _ => fail (.typeMismatch "scalar, series or matrix condition" o.kind)

/-- One element of a matrix literal's row: read as a matrix and joined to the right of the row
so far; the flag records whether a series was seen. -/
def literalElement (env : OpEnv) (acc : Matrix × Bool) (id : Nat) : OpM (Matrix × Bool) := do
  let o ← OpM.read env id
  let isSeries := match o.value with
    | .series _ => true
    | _ => false
  match ← OpM.liftFault (asMatrix? o env.ds) with
  | some m => pure (← OpM.lift (Linalg.hcat acc.1 m), acc.2 || isSeries)
  | none => OpM.fail (.typeMismatch "matrix element" o.kind)

/-- One row of a matrix literal: its elements joined side by side from the empty matrix, then
stacked under the rows so far. -/
def literalRow (env : OpEnv) (acc : Matrix × Bool) (row : List Nat) : OpM (Matrix × Bool) := do
  let (joined, hasSeries) ← row.foldlM (literalElement env) (Matrix.empty, acc.2)
  pure (← OpM.lift (Linalg.vcat acc.1 joined), hasSeries)

/-- The operator of a matrix literal whose elements sit in the cells of `grid`, row by row; a
literal with a series remembers the sample. -/
def matrixLiteralOp (grid : List (List Nat)) (env : OpEnv) : OpM Unit := do
  let (result, hasSeries) ← grid.foldlM (literalRow env) (Matrix.empty, false)
  let result := if hasSeries then { result with span := some ⟨env.ds.t1, env.ds.t2⟩ } else result
  OpM.put (.matrix result)

/-- `{a, b; c, d}`: each row joined side by side, the rows stacked; a series is its sample
as a column, and a literal with a series remembers the sample. -/
def matrixLiteral (child : Nat → EvalM Nat) (pos : Nat) (rows : Children) : EvalM Nat := do
  let frame ← read
  let grid ← (frame.forest.list rows).mapM fun row =>
    match frame.forest.node? row with
    | some (.matrixRow elems) => (frame.forest.list elems).mapM child
    | _ => throw (Fault.custom "malformed matrix literal" : EvalError)
  compute pos (matrixLiteralOp grid)

/-- A list literal: named series, lists, and whole numbers naming dataset series. -/
def listLiteral (child : Nat → EvalM Nat) (pos : Nat) (elems : Children) : EvalM Nat := do
  let frame ← read
  let ids ← (frame.forest.list elems).mapM child
  compute pos fun env => do
    OpM.put (.list [])
    let out ← ids.foldlM (fun (acc : List Nat) id => do
      let o ← OpM.read env id
      match o.value, o.origin with
      | .series _, some sid => pure (acc ++ [sid])
      | .series _, none => OpM.fail (.typeMismatch "named series in list" .series)
      | .list more, _ => pure (acc ++ more)
      | _, _ =>
        match o.scalar? with
        | some x =>
          if x.isWhole && x ≥ 0 && x.toCount < Nat.pow 2 32 && x.toCount < env.ds.series.size then
            pure (acc ++ [x.toCount])
          else OpM.fail (.typeMismatch "series or series id" o.kind)
        | none => OpM.fail (.typeMismatch "series or series id" o.kind)) []
    OpM.put (.list out)

/-- A bundle literal; null members are left out. -/
def bundleLiteral (child : Nat → EvalM Nat) (pos : Nat) (pairs : Children) : EvalM Nat := do
  let frame ← read
  let entries ← (Forest.chunksOfTwo (frame.forest.list pairs)).mapM fun chunk =>
    match chunk with
    | [key, value] =>
      match frame.forest.node? key with
      | some (.str k) => do return (frame.forest.name k, ← child value)
      | _ => throw (Fault.custom "bundle key must be a name" : EvalError)
    | _ => throw (Fault.custom "bundle literal needs key=value pairs" : EvalError)
  compute pos fun env => do
    OpM.put (.bundle [])
    let out ← entries.foldlM (fun (acc : Members) (key, id) => do
      let o ← OpM.read env id
      match o.value with
      | .null => pure acc
      | v => pure (Members.insert acc key v).1) []
    OpM.put (.bundle out)

/-- An array literal: the first element fixes the kind. -/
def arrayLiteral (child : Nat → EvalM Nat) (pos : Nat) (elems : Children) : EvalM Nat := do
  let frame ← read
  let ids ← (frame.forest.list elems).mapM child
  compute pos fun env => do
    let out ← ids.foldlM (fun (acc : Elements) id => do
      let o ← OpM.read env id
      if o.value.arrayKind?.isNone then OpM.fail (.arrayKindMismatch acc.kind o.kind)
      else match acc.push o.value with
        | .ok e => pure e
        | .error f => OpM.fail f) {}
    OpM.put out.toValue

/-- The evaluated subscripts of an index. -/
def subscripts (child : Nat → EvalM Nat) (args : List Nat) : EvalM (List Subscript) := do
  let frame ← read
  args.mapM fun node =>
    match frame.forest.node? node with
    | some .all => pure .all
    | some (.selector d) => pure (.selector d)
    | some (.range lo hi) => do
      let l ← child lo
      let h ← child hi
      let bound := fun (id : Nat) => do
        let o ← operand id
        match o.scalar? with
        | some x => pure x
        | none => fail (.typeMismatch "scalar range bound" o.kind)
      let lo ← bound l
      let hi ← bound h
      pure (.range lo hi)
    | _ => do
      let id ← child node
      let o ← operand id
      if o.isScalarLike then pure (.num (o.scalar?.getD NA))
      else match o.value with
        | .str s => pure (.str s)
        | .matrix m => pure (.matrix m)
        | _ => fail (.typeMismatch "index" o.kind)

/-- The accessor step a subscript makes into a bundle or an array, if it is one. -/
def accessor (base : Value) (subs : List Subscript) : Except EvalError (Option Accessor) :=
  match base, subs with
  | .bundle _, [.str k] => .ok (some (.key k))
  | .array _ items, [.num i] => (position i items.length).map fun p => some (.elem p)
  | _, _ => .ok none

/-- `base[subs]`: a list's series, a live member or element of a variable, or a computed
selection. -/
def access (pos b : Nat) (subs : List Subscript) : EvalM Nat := do
  let base ← operand b
  match base.value, subs with
  | .list ids, [.num i] => do
    let p ← lift (position i ids.length)
    bindCell pos (.series (ids.getD p 0)) .series .leaf
  | _, _ => do
    let step? ← lift (accessor base.value subs)
    let m ← get
    let member? : Option (Nat × List Accessor) := match step?, m.cells.handle? b with
      | some step, some (.var root) => some (root, [step])
      | some step, some (.member root path) => some (root, path ++ [step])
      | _, _ => none
    let bound? ← match member? with
      | some (root, path) => do
        let h := Handle.member root path
        let v ← lift (m.ws.resolve h)
        if isStaleList v.value m.ws.dataset then pure none
        else pure (some (← bindCell pos h v.kind .part))
      | none => pure none
    match bound? with
    | some id => pure id
    | none => compute pos fun env => do
      let base ← OpM.read env b
      OpM.put (← OpM.lift (indexValue base.value subs env.ds))

/-- `x(k)`: the series shifted by `k` observations. -/
def lag (child : Nat → EvalM Nat) (pos base k : Nat) : EvalM Nat := do
  let b ← child base
  let kc ← child k
  let ko ← operand kc
  let offset ← match ko.scalar? with
    | some x =>
      if x.isWhole then pure x.toInt64Sat
      else fail (.domain ("lag " ++ Decimal.Float.positional x))
    | none => fail (.typeMismatch "scalar lag" ko.kind)
  compute pos fun env => do
    let o ← OpM.read env b
    match o.value with
    | .series xs =>
      OpM.put (.series (← OpM.liftFault (fillSeriesChecked env.ds fun t =>
        match env.ds.lagSource t offset with
        | some src => storedAt xs src
        | none => .ok NA)))
    | _ => OpM.fail (.typeMismatch "series for lag" o.kind)

/-- Where a pointer argument came from. -/
inductive Lent where
  | var (id : Nat)
  | series (id : Nat)

/-- Move the caller's variable behind `&x` out for the call; a dataset series is copied. -/
def borrow (p : Param) (node : Nat) : EvalM (Value × Lent) := do
  let frame ← read
  match frame.forest.node? node with
  | some (.ref target) =>
    match frame.forest.node? target with
    | some (.ident v) =>
      let name := frame.forest.name v
      let ws ← workspace
      match ws.vars.lookup name with
      | some vid =>
        let (vars, value) := ws.vars.take vid
        modifyWorkspace fun ws => { ws with vars }
        pure (value.getD .null, .var vid)
      | none =>
        match ws.dataset.lookup name with
        | some sid => pure (.series ((ws.dataset.get? sid).map (·.values) |>.getD #[]), .series sid)
        | none => fail (.undefinedSymbol name)
    | _ => fail (.notAddressable (frame.forest.display target))
  | _ => fail (.custom ("argument " ++ "\x60" ++ p.name ++ "\x60" ++ " must be passed as a pointer (&name)"))

/-- A cell's value converted to a parameter type. -/
def converted (id : Nat) (t : DeclaredType) : EvalM Value := do
  let o ← operand id
  lift (convert (← workspace).dataset o t)

/-- Bind arguments to parameters in order. What was bound and lent before a failure is kept
with it, so that lent values can be handed back. -/
def bindArgs (child : Nat → EvalM Nat) :
    List (Param × Nat) → VarTable → List (String × Lent) →
    EvalM (VarTable × List (String × Lent) × Option EvalError)
  | [], locals, lent => pure (locals, lent, none)
  | (p, node) :: rest, locals, lent => do
    if (locals.lookup p.name).isSome then
      return (locals, lent, some (Fault.invalidAssignment
        ("parameter " ++ "\x60" ++ p.name ++ "\x60" ++ " is declared twice") : EvalError))
    let (got, lent) ← if p.byRef then do
        match ← attempt (borrow p node) with
        | .ok (value, source) => pure (Except.ok value, lent ++ [(p.name, source)])
        | .error e => pure (.error e, lent)
      else do
        let r ← attempt (do converted (← child node) p.declared)
        pure (r, lent)
    match got with
    | .error e => return (locals, lent, some e)
    | .ok value =>
      match locals.insert p.name value with
      | .error de => return (locals, lent, some de.toEvalError)
      | .ok (locals, _) => bindArgs child rest locals lent

/-- Hand pointer arguments back: a variable gets the local's value, a dataset series the
local series when it still has one value per observation. A local that is gone removes the
caller's variable and fails the call. -/
def giveBack (lent : List (String × Lent)) (locals : VarTable) : EvalM Unit := do
  let (_, seriesBack, lost) ← lent.foldlM (fun (acc : VarTable × List (Nat × Value) × Option String)
      (name, source) => do
    let (locals, seriesBack, lost) := acc
    let taken := match locals.lookup name with
      | some lid => locals.take lid
      | none => (locals, none)
    match taken with
    | (locals, some value) =>
      match source with
      | .var vid =>
        modifyWorkspace fun ws => { ws with vars := ws.vars.setSlot vid value }
        pure (locals, seriesBack, lost)
      | .series sid => pure (locals, seriesBack ++ [(sid, value)], lost)
    | (locals, none) =>
      match source with
      | .var vid => do
        let ws ← workspace
        match ws.vars.nameOf? vid with
        | some var =>
          match ws.vars.remove var with
          | .ok (vars, _) => modifyWorkspace fun ws => { ws with vars }
          | .error de => throw de.toEvalError
        | none => pure ()
        pure (locals, seriesBack, some (lost.getD name))
      | .series _ => pure (locals, seriesBack, some (lost.getD name))) (locals, [], none)
  for (sid, value) in seriesBack do
    match value with
    | .series xs =>
      let ws ← workspace
      if xs.size == ws.dataset.nobs then
        match ws.dataset.modifySeries sid fun s => { s with values := xs } with
        | .ok ds => modifyWorkspace fun ws => { ws with dataset := ds }
        | .error de => throw de.toEvalError
    | _ => pure ()
  match lost with
  | some name => throw ((Fault.undefinedSymbol name : EvalError).withNote "pointer argument was lost during the call")
  | none => pure ()

/-- The workspace a body runs against: the caller's, with the call's locals, one level deeper. -/
def enterBody (ws : Workspace) (locals : VarTable) : Workspace :=
  { ws with vars := locals, depth := ws.depth + 1 }

/-- The caller's workspace after a body: what the body left, with the caller's variables back and
the depth one level lower. -/
def leaveBody (caller after : Workspace) : Workspace :=
  { after with vars := caller.vars, depth := after.depth - 1 }

/-- Run a copy of a user function on argument positions: bind, run the body against the locals
(`enterBody`, `leaveBody`), hand lent values back. Gives the copy back with the cells its
statements kept. -/
def invoke (child : Nat → EvalM Nat) (fn : UserFunction) (args : List Nat) :
    EvalM (UserFunction × Except EvalError Value) := do
  if args.length != fn.params.length then
    return (fn, .error (Fault.arityMismatch fn.name fn.params.length fn.params.length args.length : EvalError))
  let (locals, lent, failure) ← bindArgs child (fn.params.zip args) {} []
  let (fn, result, locals) ← match failure with
    | some e => pure (fn, Except.error e, locals)
    | none => do
      let frame ← read
      let ws ← workspace
      let (after, fn, r) := frame.invoke (enterBody ws locals) fn
      if let .error e := r then if e.isAbort then throw e
      modifyWorkspace fun _ => leaveBody ws after
      pure (fn, r, after.vars)
  let back ← tryCatch (do giveBack lent locals; pure none) fun e => pure (some e)
  match back with
  | some e => return (fn, .error e)
  | none => return (fn, result)

/-- A call: a builtin first (when the library is present), then a user function. -/
def call (child : Nat → EvalM Nat) (pos : Nat) (name : String) (args : List Nat) : EvalM Nat := do
  let ws ← workspace
  match (if ws.library then Builtin.ofName? name else none) with
  | some b => do
    let ids ← args.mapM child
    compute pos fun env => do
      let ops ← ids.mapM (OpM.read env)
      b.call env ops
  | none =>
    if !ws.functions.contains name then fail (.unknownFunction name)
    else
      let limit := ws.config.maxDepth
      if ws.depth ≥ limit then fail (.recursionLimit limit)
      else
        match ws.functions.checkout name with
        | none => fail (.unknownFunction name)
        | some (table, fn) => do
          modifyWorkspace fun ws => { ws with functions := table }
          let (fn, result) ← invoke child fn args
          modifyWorkspace fun ws => { ws with functions := ws.functions.checkin fn }
          match result with
          | .error e => throw (e.withNote ("in function " ++ name))
          | .ok value => compute pos fun _ => OpM.put value

/-- One node, its children evaluated through `child`. -/
def step (child : Nat → EvalM Nat) (pos : Nat) : EvalM Nat := do
  let frame ← read
  let f := frame.forest
  match f.node? pos with
  | none => throw malformed
  | some n =>
    match n with
    | .num x => literal pos (.scalar x)
    | .str s => literal pos (.str (f.name s))
    | .null => literal pos .null
    | .ident name => ident pos (f.name name)
    | .unary op x => do
      let a ← child x
      compute pos fun env => do Numeric.unary env op (← OpM.read env a)
    | .binary op l r =>
      if op.isLogical then logical child pos op l r
      else do
        let a ← child l
        let b ← child r
        compute pos fun env => do Binary.apply env op (← OpM.read env a) (← OpM.read env b)
    | .ternary c a b => conditional child pos c a b
    | .call fn args => call child pos (f.name fn) (f.list args)
    | .matrixLit rows => matrixLiteral child pos rows
    | .listLit elems => listLiteral child pos elems
    | .bundleLit pairs => bundleLiteral child pos pairs
    | .arrayLit elems => arrayLiteral child pos elems
    | .index base args => do
      let b ← child base
      let subs ← subscripts child (f.list args)
      access pos b subs
    | .member base key => do
      let b ← child base
      let o ← operand b
      match o.value with
      | .matrix _ | .scalar _ | .series _ =>
        fail (.typeMismatch ("bundle for " ++ "\x60.\x60" ++ " member access") o.kind)
      | _ => access pos b [.str (f.name key)]
    | .lag base k => lag child pos base k
    | .selector _ | .all | .range .. =>
      fail (.custom ("\x60" ++ f.display pos ++ "\x60" ++ " is only valid inside a subscript"))
    | .matrixRow _ => fail (.custom "matrix row outside a matrix literal")
    | .ref _ => fail (.custom ("\x60" ++ f.display pos ++ "\x60" ++ ": pointers are only valid as function arguments"))

end Walk

/-- Evaluate the subtree at `pos`, returning the cell that holds its value. -/
def evalNode (pos : Nat) : EvalM Nat :=
  Walk.step (fun c => if c < pos then evalNode c else throw Walk.malformed) pos
termination_by pos

end SeriesCalc
