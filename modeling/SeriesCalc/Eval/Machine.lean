import SeriesCalc.Eval.Cells
import SeriesCalc.Eval.Workspace
import SeriesCalc.Eval.Scratch

/-!
# The evaluation machine

A walk over one statement's tree runs in `EvalM`: it reads a `Frame` (the forest, the
declared type of the statement, and how to run a user function's body), it may fail, and it
changes a `Machine` (the workspace and the statement's cells). A failure keeps every change
made before it, as the workspace of a failed statement shows.

Cells are read through `CellStore.read`: an owned cell gives its value, an alias the storage
it stands for, which must still exist and have the kind it had when the cell was bound.
-/

namespace SeriesCalc

/-- One accessor step into a stored value. -/
def Accessor.follow (v : Value) (step : Accessor) : Except EvalError Value :=
  match v, step with
  | .bundle ms, .key k =>
    match Members.get? ms k with
    | some x => .ok x
    | none => .error (Fault.undefinedMember k : EvalError)
  | .array _ items, .elem i =>
    match items[i]? with
    | some x => .ok x
    | none => .error (Fault.indexOutOfBounds (Word.wrapSigned (Word.signed i + 1)) items.length : EvalError)
  | other, .key _ => .error (Fault.typeMismatch "bundle" other.kind : EvalError)
  | other, .elem _ => .error (Fault.typeMismatch "array" other.kind : EvalError)

/-- Debug text of a variable slot. -/
def varText (id : Nat) : String := s!"VarId({id})"

/-- The current content of the storage a handle stands for. -/
def Workspace.resolve (ws : Workspace) (h : Handle) : Except EvalError Operand :=
  match h with
  | .series id =>
    match ws.dataset.get? id with
    | some s => .ok { value := .series s.values, origin := some id, categories := s.categories }
    | none => .error (Fault.undefinedSymbol (toString id) : EvalError)
  | .var id =>
    match ws.vars.get? id with
    | some v => .ok { value := v }
    | none => .error (Fault.undefinedSymbol (varText id) : EvalError)
  | .member root path =>
    match ws.vars.get? root with
    | some v => (path.foldlM Accessor.follow v).map fun v => { value := v }
    | none => .error (Fault.undefinedSymbol (varText root) : EvalError)

/-- The current value of a cell. -/
def CellStore.read (cells : CellStore) (ws : Workspace) (id : Nat) : Except EvalError Operand :=
  match cells.cell? id with
  | none => .error (Fault.undefinedSymbol s!"AuxId({id})" : EvalError)
  | some c =>
    match c.payload with
    | .owned v => .ok { value := v }
    | .alias h => do
      let o ← ws.resolve h
      if c.boundKind != .null && o.kind != c.boundKind then
        throw ((Fault.typeMismatch c.boundKind.name o.kind : EvalError).withNote
          "value changed type during evaluation")
      return o

/-- The storage an alias cell stands for. -/
def CellStore.handle? (cells : CellStore) (id : Nat) : Option Handle :=
  match cells.cell? id with
  | some { payload := .alias h, .. } => some h
  | _ => none

/-- The workspace and the cells of the statement being walked. -/
structure Machine where
  ws : Workspace
  cells : CellStore
deriving Inhabited

/-- What a walk reads: the trees, the declared type, and how to run the body of a copy of a user
function against a workspace whose variables are the call's locals (the workspace after it,
the copy with the cells its statements kept, and the body's value or why it failed). -/
structure Frame where
  forest : Forest
  target : DeclaredType
  invoke : Workspace → UserFunction → Workspace × UserFunction × Except EvalError Value

/-- A walk: it reads a frame, may fail, and changes the machine (changes before a failure
stay). -/
abbrev EvalM := ReaderT Frame (ExceptT EvalError (StateM Machine))

namespace EvalM

def fail {α : Type} (f : Fault) : EvalM α := throw (f : EvalError)

/-- Lift a result that may fail. -/
def lift {α : Type} (r : Except EvalError α) : EvalM α :=
  match r with
  | .ok a => pure a
  | .error e => throw e

/-- Take the machine out of the state, leaving a placeholder, so that it can be changed in
place. -/
def takeMachine : EvalM Machine := modifyGet fun m => (m, default)

def workspace : EvalM Workspace := do return (← get).ws

def modifyWorkspace (f : Workspace → Workspace) : EvalM Unit :=
  modify fun m => { m with ws := f m.ws }

def modifyCells {α : Type} (f : CellStore → CellStore × α) : EvalM α :=
  modifyGet fun ⟨ws, cells⟩ => let (cells, a) := f cells; (a, ⟨ws, cells⟩)

/-- The current value of a cell. -/
def operand (id : Nat) : EvalM Operand := do
  let m ← get
  lift (m.cells.read m.ws id)

/-- The cell of a literal. -/
def literal (pos : Nat) (v : Value) : EvalM Nat := modifyCells fun c => c.literal pos v

/-- Bind a position's cell to storage of kind `k`. -/
def bindCell (pos : Nat) (h : Handle) (k : ValueKind) (r : Role) : EvalM Nat :=
  modifyCells fun c => c.bind pos h k r

/-- Let a position share another cell. -/
def share (pos target : Nat) : EvalM Nat := modifyCells fun c => (c.share pos target, target)

/-- Run an operator into the position's own cell. The cell's value is lent to the operator
and put back whatever happens, so a failed operator leaves what it wrote. -/
def compute (pos : Nat) (op : OpEnv → OpM Unit) : EvalM Nat := do
  let frame ← read
  let ⟨ws, cells⟩ ← takeMachine
  let (cells, id) := cells.writable pos
  let (cells, out) := cells.lend id
  let env : OpEnv := { ds := ws.dataset, target := frame.target, read := cells.read ws }
  let (r, s) := ((op env).run.run ⟨out, ws.warnings⟩)
  let cells := cells.restore id s.cell
  set (⟨{ ws with warnings := s.log }, cells⟩ : Machine)
  match r with
  | .ok () => pure id
  | .error e => throw e

end EvalM

end SeriesCalc
