import SeriesCalc.Eval.Walk
import SeriesCalc.Eval.Assign

/-!
# Running statements

A `Runnable` is a statement with its cells. Running it:

1. drops the cells if the dataset's length, the dataset or the variable table changed since
   they were built;
2. evaluates the right-hand side, then resolves the target (evaluating its subscripts) and
   writes; a bare expression gives its value;
3. keeps the cells of a compiled statement that succeeded, and drops them otherwise;
4. adds the note `in statement: <text>` to an error;
5. under the failing warning policy, turns the first recorded warning into an error.

A copy of a user function runs its body statement by statement against the call's locals,
then its return statement, whose value is converted to the declared return type; each
statement keeps its cells in the copy, so the compiled copy starts the next call with them.
Each call level takes one unit of `fuel`; the depth limit is checked before a call, so
`maxDepth + 1` units always suffice.
-/

namespace SeriesCalc

namespace Run

open EvalM

/-- The root and steps of an assignment target. -/
def resolveInto (node : Nat) : EvalM (Root × List Step) := do
  let frame ← read
  let f := frame.forest
  match f.node? node with
  | some (.ident name) =>
    let name := f.name name
    let ws ← workspace
    match ws.vars.lookup name with
    | some vid => pure (.var vid, [])
    | none =>
      match ws.dataset.lookup name with
      | some sid => pure (.series sid, [])
      | none => pure (.fresh name, [])
  | some (.index base args) =>
    if base < node then do
      let (root, steps) ← resolveInto base
      let subs ← Walk.subscripts evalNode (f.list args)
      pure (root, steps ++ [.sub subs])
    else throw Walk.malformed
  | some (.member base key) =>
    if base < node then do
      let (root, steps) ← resolveInto base
      pure (root, steps ++ [.key (f.name key)])
    else throw Walk.malformed
  | _ => fail (.notAddressable (f.display node))
termination_by node

/-- Resolve the target tree at `lhs`; a new name cannot take steps. -/
def resolvePlace (lhs : Nat) : EvalM Place := do
  let text := (← read).forest.display lhs
  let (root, steps) ← resolveInto lhs
  match root with
  | .fresh name => if !steps.isEmpty then fail (.undefinedSymbol name)
  | _ => pure ()
  pure ⟨root, steps, text⟩

/-- The right-hand side of an assignment. With `donate`, an owned value is moved out of its
cell; otherwise it is read (a dataset series keeps its id). -/
def rhsOperand (op : AssignOp) (rhs : Option Nat) (donate : Bool) : EvalM Operand := do
  match rhs with
  | none =>
    if op.isUnary then pure { value := .scalar 1 }
    else fail (.invalidAssignment (op.symbol ++ " needs a value"))
  | some id =>
    let taken ← if donate then modifyCells fun c => c.takeOwned id else pure none
    match taken with
    | some v => pure { value := v }
    | none => do
      let o ← operand id
      pure { o with categories := none }

/-- Perform `lhs op rhs`. -/
def assign (lhs : Nat) (op : AssignOp) (rhs : Option Nat) (donate : Bool) : EvalM Unit := do
  let place ← resolvePlace lhs
  let target := (← read).target
  let r ← rhsOperand op rhs donate
  let m ← takeMachine
  let (result, ws) := ((Assign.write place op r target).run).run m.ws
  set ({ m with ws } : Machine)
  lift result

/-- One walk over a statement: the right-hand side, then the assignment; a bare expression
gives its value when `wantValue`. -/
def walk (s : Statement) (wantValue : Bool) : EvalM Value := do
  let donate := !s.compiled
  let rhsId ← s.rhs.mapM evalNode
  match s.lhs with
  | some lhs =>
    assign lhs s.op rhsId donate
    pure .null
  | none =>
    match rhsId with
    | some id =>
      if wantValue then
        let taken ← if donate then modifyCells fun c => c.takeOwned id else pure none
        match taken with
        | some v => pure v
        | none => return (← operand id).value
      else pure .null
    | none => pure .null

/-- Fail with the first recorded warning under the failing policy, clearing the log. -/
def checkWarnings (ws : Workspace) : Workspace × Except EvalError Unit :=
  match ws.config.policy, ws.warnings.entries with
  | .fail, (w, _) :: _ => ({ ws with warnings := {} }, .error (Fault.custom w.text : EvalError))
  | _, _ => (ws, .ok ())

/-- Run a statement, with `invoke` running the bodies of the user functions it calls. -/
def statementWith (invoke : Workspace → UserFunction → Workspace × UserFunction × Except EvalError Value)
    (wantValue : Bool) (ws : Workspace) (r : Runnable) : Workspace × Runnable × Except EvalError Value :=
  let stamp : Stamp := ⟨ws.dataset.nobs, ws.dataset.epoch, ws.vars.epoch⟩
  let cells := r.cells.validate stamp
  let frame : Frame := ⟨r.stmt.forest, r.stmt.declared, invoke⟩
  let (result, m) := (((walk r.stmt wantValue).run frame).run).run ⟨ws, cells⟩
  let ok := match result with
    | .ok _ => true
    | .error _ => false
  let cells := if r.stmt.compiled && ok then { m.cells with starting := false } else m.cells.clear
  let r := { r with cells }
  match result with
  | .error e => (m.ws, r, .error (e.withNote ("in statement: " ++ r.stmt.text)))
  | .ok v =>
    let (ws, checked) := checkWarnings m.ws
    match checked with
    | .ok () => (ws, r, .ok v)
    | .error e => (ws, r, .error e)

/-- Run the body statements of a function in order, with `run` running each, until one fails;
gives each statement back with its cells. -/
def bodyRun (run : Bool → Workspace → Runnable → Workspace × Runnable × Except EvalError Value) :
    Workspace → List Runnable → Workspace × List Runnable × Except EvalError Unit
  | ws, [] => (ws, [], .ok ())
  | ws, r :: rest =>
    let (ws, r, res) := run false ws r
    match res with
    | .error e => (ws, r :: rest, .error e)
    | .ok _ =>
      let (ws, rest, res) := bodyRun run ws rest
      (ws, r :: rest, res)

/-- Run a copy of a function against a workspace holding the call's locals, with `run` running
each statement: the body, then the return statement, whose value is converted to the declared
type. Gives the copy back with the cells its statements kept. -/
def bodyWith (run : Bool → Workspace → Runnable → Workspace × Runnable × Except EvalError Value)
    (ws : Workspace) (fn : UserFunction) : Workspace × UserFunction × Except EvalError Value :=
  match bodyRun run ws fn.body with
  | (ws, body, .error e) => (ws, { fn with body }, .error e)
  | (ws, body, .ok ()) =>
    match fn.returns with
    | none => (ws, { fn with body }, .ok .null)
    | some (t, r) =>
      let (ws, r, res) := run true ws r
      let fn := { fn with body, returns := some (t, r) }
      match res with
      | .error e => (ws, fn, .error e)
      | .ok v => (ws, fn, convert ws.dataset { value := v } t)

/-- Run a statement with `fuel` call levels left. -/
def statementAt : Nat → Bool → Workspace → Runnable → Workspace × Runnable × Except EvalError Value
  | 0 => statementWith fun ws fn => (ws, fn, .error (Fault.recursionLimit ws.config.maxDepth : EvalError))
  | fuel + 1 => statementWith (bodyWith (statementAt fuel))

end Run

namespace Runnable

/-- Run a statement at the workspace's call depth; gives the value of a bare expression. -/
def evaluate (ws : Workspace) (r : Runnable) : Workspace × Runnable × Except EvalError Value :=
  Run.statementAt (ws.config.maxDepth + 1) true ws r

/-- The same statement with no cells. -/
def fresh (r : Runnable) : Runnable := { stmt := r.stmt }

end Runnable

end SeriesCalc
