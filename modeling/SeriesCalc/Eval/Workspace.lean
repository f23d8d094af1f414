import SeriesCalc.Expr.Tree
import SeriesCalc.Value.Kind
import SeriesCalc.Data.Dataset
import SeriesCalc.Data.Vars
import SeriesCalc.Eval.Cells

/-!
# Statements, user functions and the workspace

A statement is `target op value` or a bare expression over one syntax forest, with the type it
declares for its target and whether it is compiled (keeps its cells between runs); a
`Runnable` is a statement with its cells. A user function has parameters (by value, or pointers
`&x` that lend the caller's variable), body statements and an optional typed return statement.

The function table keeps two copies of each function: an uncompiled template, and a compiled
copy whose statements keep their cells from one call to the next. A call checks the compiled
copy out of the table and back in when it returns; a call that finds it checked out (a
recursive call, or a call in an argument of a call of the same function) runs a fresh
uncompiled copy, which is dropped afterwards.

The workspace is everything statements read and change: the dataset, the variables, the
function table, whether the builtin library is present, the warning log, the current call
depth and the configuration.
-/

namespace SeriesCalc

/-- One statement: `lhs op rhs`, a bare expression (`rhs` only) or nothing. -/
structure Statement where
  forest : Forest
  lhs : Option Nat := none
  op : AssignOp := .assign
  rhs : Option Nat := none
  declared : DeclaredType := .any
  compiled : Bool := false
deriving Inhabited

namespace Statement

/-- Surface text: `lhs op rhs`, `lhs++`, the expression, or nothing. -/
def text (s : Statement) : String :=
  match s.lhs, s.rhs with
  | some l, some r => s.forest.display l ++ " " ++ s.op.symbol ++ " " ++ s.forest.display r
  | some l, none => s.forest.display l ++ s.op.symbol
  | none, some r => s.forest.display r
  | none, none => ""

end Statement

/-- A statement and its cells. -/
structure Runnable where
  stmt : Statement
  cells : CellStore := {}
deriving Inhabited

/-- A declared parameter of a user function. -/
structure Param where
  name : String
  declared : DeclaredType := .any
  byRef : Bool := false
deriving Inhabited

/-- Debug text of a parameter. -/
def Param.debugText (p : Param) : String :=
  "Param \x7b name: " ++ debugQuoted p.name ++ ", ty: " ++ p.declared.debugName ++ ", by_ref: " ++
    toString p.byRef ++ " \x7d"

/-- A user function: parameters, body, and a return statement with its declared type. -/
structure UserFunction where
  name : String
  params : List Param := []
  body : List Runnable := []
  returns : Option (DeclaredType × Runnable) := none
deriving Inhabited

namespace UserFunction

/-- The same function with every statement compiled or not, and no cells. -/
def copyWith (f : UserFunction) (compiled : Bool) : UserFunction :=
  { f with
    body := f.body.map fun r => { stmt := { r.stmt with compiled } }
    returns := f.returns.map fun (t, r) => (t, { stmt := { r.stmt with compiled } }) }

/-- Every statement is compiled: the copy that keeps its cells between calls. -/
def isCompiled (f : UserFunction) : Bool :=
  f.body.all (·.stmt.compiled) && f.returns.all (·.2.stmt.compiled)

end UserFunction

/-- Debug text of a function: its name, parameters, body length and return type. -/
def UserFunction.debugText (f : UserFunction) : String :=
  let ret := match f.returns with
    | some (t, _) => "Some(" ++ t.debugName ++ ")"
    | none => "None"
  "UserFunction \x7b name: " ++ debugQuoted f.name ++ ", params: [" ++
    ", ".intercalate (f.params.map Param.debugText) ++ "], statements: " ++
    toString f.body.length ++ ", returns: " ++ ret ++ " \x7d"

/-- A defined function: the uncompiled template, and the compiled copy, absent while a call
has it. -/
structure FunctionEntry where
  proto : UserFunction
  warm : Option UserFunction
deriving Inhabited

/-- User functions by name. -/
structure FunctionTable where
  entries : List (String × FunctionEntry) := []
deriving Inhabited

namespace FunctionTable

def find? (t : FunctionTable) (name : String) : Option FunctionEntry := t.entries.lookup name

def contains (t : FunctionTable) (name : String) : Bool := (t.find? name).isSome

/-- Define or replace a function: a fresh template and a fresh compiled copy. -/
def define (t : FunctionTable) (f : UserFunction) : FunctionTable :=
  ⟨(t.entries.filter (·.1 != f.name)) ++ [(f.name, ⟨f.copyWith false, some (f.copyWith true)⟩)]⟩

/-- Remove a function; also tells whether it was there. -/
def remove (t : FunctionTable) (name : String) : FunctionTable × Bool :=
  (⟨t.entries.filter (·.1 != name)⟩, t.contains name)

def size (t : FunctionTable) : Nat := t.entries.length

/-- The names, sorted. -/
def names (t : FunctionTable) : List String :=
  (t.entries.map (·.1)).mergeSort (fun a b => decide (a ≤ b))

/-- Set the compiled copy of a function. -/
def setWarm (t : FunctionTable) (name : String) (w : Option UserFunction) : FunctionTable :=
  ⟨t.entries.map fun (n, e) => if n == name then (n, { e with warm := w }) else (n, e)⟩

/-- Take a function for a call: its compiled copy when the table has it, otherwise a fresh
uncompiled copy of the template. -/
def checkout (t : FunctionTable) (name : String) : Option (FunctionTable × UserFunction) :=
  match t.find? name with
  | none => none
  | some e =>
    match e.warm with
    | some w => some (t.setWarm name none, w)
    | none => some (t, e.proto.copyWith false)

/-- Return a function taken for a call. A copy that is not compiled is dropped, and so is a
compiled one when its entry has its compiled copy already. -/
def checkin (t : FunctionTable) (f : UserFunction) : FunctionTable :=
  if !f.isCompiled then t
  else
    match t.find? f.name with
    | some e => if e.warm.isNone then t.setWarm f.name (some f) else t
    | none => t

end FunctionTable

/-- What happens to a statement that records a numeric warning. -/
inductive WarningPolicy where
  /-- Keep the warning in the log. -/
  | record
  /-- Fail the statement with the warning's text. -/
  | fail
deriving DecidableEq, BEq, Inhabited

/-- Evaluation settings. -/
structure Config where
  /-- User function calls may nest this deep. -/
  maxDepth : Nat := 256
  /-- New top-level statements are compiled. -/
  compile : Bool := false
  policy : WarningPolicy := .record
deriving Inhabited

/-- Everything statements read and change. -/
structure Workspace where
  dataset : Dataset
  vars : VarTable := {}
  functions : FunctionTable := {}
  /-- The standard builtin library is present. -/
  library : Bool := true
  warnings : WarningLog := {}
  depth : Nat := 0
  config : Config := {}
deriving Inhabited

def Workspace.inFunction (ws : Workspace) : Bool := ws.depth > 0

end SeriesCalc
