import SeriesCalc.Eval.Binary
import SeriesCalc.Eval.Convert
import SeriesCalc.Eval.Select
import SeriesCalc.Eval.Workspace
import SeriesCalc.Eval.Machine

/-!
# Assignment

An assignment target is a `Place`: a root (an existing variable, a dataset series, or a new
name) and the member and subscript steps from it. Writes go into the stored value itself,
so every enclosing container sees them.

* A new name gets the (converted) value: a series outside a function becomes a dataset
  series, NA outside the sample; anything else a variable. Only plain `=` can define.
* An existing variable keeps its type: a declared type must agree with it, plain `=`
  converts the value to it, `.=` fills a matrix, and `op=` combines the old value with the
  new one and converts the result back.
* A dataset series is written over the sample only; a string names a category of a series
  with category labels.
* A member of a bundle, an element of an array or list, a character of a string, an
  observation of a series or a selection of a matrix is written in place; `op=` on a
  matrix selection computes on the selected block and writes it back.

Writes run in `WriteM`: a failure keeps what happened before it (a dataset series that
was reached for writing marks the dataset modified).
-/

namespace SeriesCalc

/-- Where an assignment starts. -/
inductive Root where
  | var (id : Nat)
  | series (id : Nat)
  /-- A name not yet defined. -/
  | fresh (name : String)

/-- One step from a container into its contents. -/
inductive Step where
  /-- `b.key` -/
  | key (k : String)
  /-- `x[...]` -/
  | sub (args : List Subscript)

/-- A resolved assignment target, with its surface text for messages. -/
structure Place where
  root : Root
  steps : List Step
  text : String

/-- A write: it may fail, keeping the changes made before. -/
abbrev WriteM := ExceptT EvalError (StateM Workspace)

namespace WriteM

def fail {α : Type} (f : Fault) : WriteM α := throw (f : EvalError)

def lift {α : Type} (r : Except EvalError α) : WriteM α :=
  match r with
  | .ok a => pure a
  | .error e => throw e

def liftData {α : Type} (r : Except DataError α) : WriteM α :=
  match r with
  | .ok a => pure a
  | .error e => throw e.toEvalError

def dataset : WriteM Dataset := do return (← get).dataset

/-- Run an operator from an empty cell against the workspace's dataset and warning log. -/
def operate (target : DeclaredType) (op : OpEnv → OpM Unit) : WriteM Value := do
  let ws ← get
  let env : OpEnv := { ds := ws.dataset, target }
  let (r, s) := (op env).run.run ⟨.null, ws.warnings⟩
  set { ws with warnings := s.log }
  match r with
  | .ok () => pure s.cell
  | .error e => throw e

/-- Record a warning, if any. -/
def note (w : Option Warning) : WriteM Unit :=
  match w with
  | some w => modify fun ws => { ws with warnings := ws.warnings.record w }
  | none => pure ()

/-- Reach a dataset series for writing: the constant series is refused, and the dataset
counts as modified from here on. -/
def writableSeries (sid : Nat) : WriteM Series := do
  let ds ← dataset
  if sid == 0 then throw DataError.constSeries.toEvalError
  match ds.series[sid]? with
  | none => throw (DataError.unknownSeries (toString sid)).toEvalError
  | some s =>
    modify fun ws => { ws with dataset := { ws.dataset with modified := true } }
    pure s

def putSeries (sid : Nat) (s : Series) : WriteM Unit :=
  modify fun ws => { ws with dataset := { ws.dataset with series := ws.dataset.series.set! sid s } }

end WriteM

namespace Assign

open WriteM

/-- `existing op rhs` keeping the kind of `existing`. -/
def combine (existing : Value) (op : AssignOp) (rhs : Operand) (target : DeclaredType) : WriteM Value := do
  let bop ← match op.binary? with
    | some b => pure b
    | none => fail (.invalidAssignment (op.symbol ++ " needs an existing value"))
  let out ← operate target fun env => Binary.apply env bop { value := existing } rhs
  let want := DeclaredType.of existing
  if want.isAny || DeclaredType.of out == want then pure out
  else lift (convert (← dataset) { value := out } want)

/-- `M .= x`: every entry of the matrix becomes `x`. -/
def fill (slot : Value) (rhs : Operand) : Except EvalError Value :=
  match slot with
  | .matrix m =>
    match rhs.scalar? with
    | some x => .ok (.matrix (Matrix.filled m.rows m.cols x))
    | none => .error (Fault.typeMismatch "scalar" rhs.kind : EvalError)
  | other => .error (Fault.typeMismatch "matrix for .=" other.kind : EvalError)

/-- Write into an existing value of type `want`. -/
def update (slot : Value) (op : AssignOp) (rhs : Operand) (want : DeclaredType) : WriteM Value :=
  match op with
  | .assign => do
    if rhs.value.isNull then
      match want.empty? with
      | some v => pure v
      | none => fail (.invalidAssignment ("cannot assign null to a " ++ want.name))
    else
      let conformed ← lift (conform (← dataset) rhs want)
      pure conformed.value
  | .fill => lift (fill slot rhs)
  | op => combine slot op rhs want

/-- A new series has NA outside the sample. -/
def restrictToSample (ds : Dataset) (xs : Array Float) : Array Float :=
  if xs.size != ds.nobs then xs
  else (List.range xs.size).foldl (fun xs t => if t < ds.t1 || t > ds.t2 then xs.set! t NA else xs) xs

/-- The first assignment to a name. -/
def define (name : String) (op : AssignOp) (rhs : Operand) (target : DeclaredType) : WriteM Unit := do
  if op.isInflected then fail (.undefinedSymbol name)
  let value ← if rhs.value.isNull then
      match target.empty? with
      | some v => pure v
      | none => fail (.invalidAssignment (name ++ ": null needs a container type"))
    else do
      let conformed ← lift (conform (← dataset) rhs target)
      pure conformed.value
  let ws ← get
  match value with
  | .series xs =>
    let xs := restrictToSample ws.dataset xs
    if !ws.inFunction then
      let (ds, _) ← liftData (ws.dataset.addSeries name xs)
      set { ws with dataset := ds }
    else
      let (vars, _) ← liftData (ws.vars.insert name (.series xs))
      set { ws with vars }
  | v =>
    let (vars, _) ← liftData (ws.vars.insert name v)
    set { ws with vars }

/-- Write a dataset series over the sample. -/
def writeSeries (sid : Nat) (text : String) (op : AssignOp) (rhs : Operand) (target : DeclaredType) :
    WriteM Unit := do
  match target with
  | .any | .series => pure ()
  | t => fail (.invalidAssignment (text ++ " is a series, not a " ++ t.name))
  match op with
  | .concat | .union | .fill => fail (.invalidAssignment (op.symbol ++ " is not defined for series"))
  | _ => pure ()
  let ds ← dataset
  if ds.nobs == 0 then return
  let sample := ds.sampleRange
  match rhs.value with
  | .str s =>
    let series ← writableSeries sid
    match series.categories with
    | none => fail (.typeMismatch "numeric value" rhs.kind)
    | some table =>
      if op != .assign then fail (.invalidAssignment (text ++ ": string values need plain ="))
      let (table, code) := table.intern s
      putSeries sid { series with categories := some table,
                                  values := sample.foldl (fun xs t => xs.set! t code) series.values }
  | _ =>
    let col ← match Column.of? rhs ds with
      | some c => pure c
      | none => fail (.typeMismatch "series" rhs.kind)
    let series ← writableSeries sid
    if series.categories.isSome && op != .assign then
      fail (.invalidAssignment (text ++ ": string values need plain ="))
    let values ← sample.foldlM (fun xs t => do
      let (x, w) := Kernel.assign (xs.getD t NA) (col.at t) op
      note w
      pure (xs.set! t x)) series.values
    putSeries sid { series with values }

/-- Assignment to a whole variable or dataset series, or a new name. -/
def whole (place : Place) (op : AssignOp) (rhs : Operand) (target : DeclaredType) : WriteM Unit := do
  match place.root with
  | .fresh name => define name op rhs target
  | .series sid => writeSeries sid place.text op rhs target
  | .var vid =>
    let ws ← get
    match ws.vars.get? vid with
    | none => fail (.undefinedSymbol place.text)
    | some slot =>
      let kind := DeclaredType.of slot
      if !target.isAny && !kind.isAny && target != kind then
        fail (.invalidAssignment (place.text ++ " is a " ++ kind.name ++ ", not a " ++ target.name))
      let want := if kind.isAny then target else kind
      let v ← update slot op rhs want
      modify fun ws => { ws with vars := ws.vars.setSlot vid v }

/-- The observation an `x[t]` or `x["label"]` addresses. -/
def observation (ds : Dataset) (args : List Subscript) : Except EvalError Nat :=
  match args with
  | [.num x] => position x ds.nobs
  | [.str label] =>
    match ds.findObs label with
    | some t => .ok t
    | none => .error (Fault.undefinedMember label : EvalError)
  | [other] => .error (Fault.typeMismatch "observation index" other.kind : EvalError)
  | _ => .error (Fault.notAddressable "series with more than one subscript" : EvalError)

/-- A number for one element. -/
def numericElement (rhs : Operand) (op : AssignOp) (text : String) : Except EvalError Float :=
  match op with
  | .concat | .union | .fill =>
    .error (Fault.invalidAssignment (text ++ ": " ++ op.symbol ++ " is not defined for a single element") : EvalError)
  | _ =>
    match rhs.scalar? with
    | some x => .ok x
    | none => .error (Fault.typeMismatch "scalar" rhs.kind : EvalError)

/-- `x[t] op= v` on a dataset series. -/
def writeObs (sid t : Nat) (text : String) (op : AssignOp) (rhs : Operand) : WriteM Unit := do
  let series ← writableSeries sid
  match series.categories with
  | some table =>
    if op != .assign then fail (.invalidAssignment (text ++ ": string values need plain ="))
    match rhs.value with
    | .str s =>
      let (table, code) := table.intern s
      putSeries sid { series with categories := some table, values := series.values.set! t code }
    | _ => fail (.typeMismatch "string" rhs.kind)
  | none =>
    let x ← lift (numericElement rhs op text)
    let (y, w) := Kernel.assign (series.values.getD t NA) x op
    note w
    putSeries sid { series with values := series.values.set! t y }

/-- The accessor a step makes into a bundle or an array, if it makes one. -/
def accessor (container : Value) (step : Step) : Except EvalError (Option Accessor) :=
  match container, step with
  | .bundle _, .key k => .ok (some (.key k))
  | .bundle _, .sub [.str k] => .ok (some (.key k))
  | .bundle _, .sub _ => .ok none
  | .array _ items, .sub [.num i] => (position i items.length).map fun p => some (.elem p)
  | other, .key _ => .error (Fault.typeMismatch "bundle" other.kind : EvalError)
  | _, _ => .ok none

/-- Replace what an accessor reaches. -/
def replaceAt (container : Value) (a : Accessor) (v : Value) : Value :=
  match container, a with
  | .bundle ms, .key k => .bundle (Members.insert ms k v).1
  | .array kind items, .elem i => .array kind (items.set i v)
  | other, _ => other

/-- What a write needs besides the slot. -/
structure Target where
  ds : Dataset
  declared : DeclaredType
  text : String

/-- Refuse anything but plain `=`. -/
def plainOnly (t : Target) (op : AssignOp) (what : String) : Except EvalError Unit :=
  if op == .assign then .ok ()
  else .error (Fault.invalidAssignment (t.text ++ ": " ++ op.symbol ++ " is not defined for " ++ what) : EvalError)

/-- `b.key op= v`. -/
def writeMember (ms : Members) (key : String) (op : AssignOp) (rhs : Operand) (t : Target) :
    WriteM Members := do
  if op == .assign && rhs.value.isNull then
    match t.declared.empty? with
    | some e => return (Members.insert ms key e).1
    | none => return (Members.remove ms key).1
  if op.isInflected then
    match Members.get? ms key with
    | none => fail (.undefinedMember key)
    | some existing =>
      let v ← if op == .fill then lift (fill existing rhs)
        else combine existing op rhs (DeclaredType.of existing)
      return (Members.insert ms key v).1
  let v := (← lift (conform t.ds rhs t.declared)).value
  return (Members.insert ms key v).1

/-- `a[i] op= v` on an array. -/
def writeElement (e : Elements) (args : List Subscript) (op : AssignOp) (rhs : Operand) (t : Target) :
    WriteM Elements := do
  let i ← match args with
    | [.num i] => pure i
    | _ => fail (.notAddressable t.text)
  let p ← lift (position i e.items.length)
  let value ← if op == .assign then
      if rhs.value.isNull then
        match e.kind with
        | some k => pure k.emptyElement
        | none => fail (.invalidAssignment (t.text ++ ": null element"))
      else pure rhs.value
    else
      let existing := e.items.getD p .null
      if op == .fill then lift (fill existing rhs)
      else combine existing op rhs (DeclaredType.of existing)
  match e.set p value with
  | .ok e => pure e
  | .error f => fail f

/-- `L[i] = x`: the element names another series. -/
def writeListElem (ids : List Nat) (args : List Subscript) (op : AssignOp) (rhs : Operand) (t : Target) :
    Except EvalError (List Nat) := do
  plainOnly t op "list elements"
  let i ← match args with
    | [.num i] => pure i
    | _ => throw (Fault.notAddressable t.text : EvalError)
  let p ← position i ids.length
  let sid? := match rhs.value with
    | .series _ => rhs.origin
    | _ => match rhs.scalar? with
      | some x => if x.isWhole && x ≥ 0 && x.toCount < Nat.pow 2 32 then some x.toCount else none
      | none => none
  match sid?.filter (· < t.ds.series.size) with
  | some sid => pure (ids.set p sid)
  | none => throw (Fault.typeMismatch "series or series id" rhs.kind : EvalError)

/-- `s[i] = "c"`: replace one character. -/
def writeChar (s : String) (args : List Subscript) (op : AssignOp) (rhs : Operand) (t : Target) :
    Except EvalError String := do
  plainOnly t op "string characters"
  let i ← match args with
    | [.num i] => pure i
    | _ => throw (Fault.notAddressable t.text : EvalError)
  let p ← position i s.length
  match rhs.value with
  | .str new =>
    match new.toList with
    | [c] => return String.ofList (s.toList.set p c)
    | _ => throw (Fault.invalidAssignment (t.text ++ ": expected a single character") : EvalError)
  | _ => throw (Fault.typeMismatch "string" rhs.kind : EvalError)

/-- `M[sel] op= x`. -/
def writeBlock (m : Matrix) (args : List Subscript) (op : AssignOp) (rhs : Operand) (t : Target) :
    WriteM Matrix := do
  let sel ← lift (Selection.resolve args m.shape)
  let block ← match op.binary? with
    | none =>
      if op == .fill && !rhs.isScalarLike then fail (.typeMismatch "scalar" rhs.kind)
      match ← lift (Fault.raise (asMatrix? rhs t.ds)) with
      | some b => pure b
      | none => fail (.typeMismatch "matrix" rhs.kind)
    | some bop =>
      lift (Fault.raise (Fault.check (sel.overrun m.entries.size)))
      let current := Selection.extract m sel
      let out ← operate .matrix fun env => Binary.apply env bop { value := .matrix current } rhs
      match out with
      | .matrix r => pure r
      | .scalar x => pure (Matrix.ofScalar x)
      | other => fail (.typeMismatch "matrix" other.kind)
  lift (Selection.splice m sel block)

/-- The last step decides the kind of write. -/
def writeLeaf (slot : Value) (step : Step) (op : AssignOp) (rhs : Operand) (t : Target) : WriteM Value := do
  match ← lift (accessor slot step), slot with
  | some (.key k), .bundle ms => return .bundle (← writeMember ms k op rhs t)
  | _, _ =>
    match step with
    | .key _ => fail (.notAddressable t.text)
    | .sub args =>
      match slot with
      | .array kind items => return (← writeElement ⟨kind, items⟩ args op rhs t).toValue
      | .list ids => return .list (← lift (writeListElem ids args op rhs t))
      | .str s => return .str (← lift (writeChar s args op rhs t))
      | .matrix m => return .matrix (← writeBlock m args op rhs t)
      | .series xs =>
        let p ← lift (observation t.ds args)
        let x ← lift (numericElement rhs op t.text)
        let (y, w) := Kernel.assign (← lift (Fault.raise (storedAt xs p))) x op
        note w
        return .series (xs.set! p y)
      | other => fail (.typeMismatch "indexable value" other.kind)

/-- Follow the steps from a stored value and write at the end. -/
def writeInto (slot : Value) (op : AssignOp) (rhs : Operand) (t : Target) : List Step → WriteM Value
  | [] => update slot op rhs (DeclaredType.of slot)
  | [step] => writeLeaf slot step op rhs t
  | step :: rest => do
    match ← lift (accessor slot step) with
    | none => fail (.notAddressable t.text)
    | some a =>
      let inner ← lift (Accessor.follow slot a)
      let v ← writeInto inner op rhs t rest
      return replaceAt slot a v

/-- Assignment through member and subscript steps. -/
def nested (place : Place) (op : AssignOp) (rhs : Operand) (target : DeclaredType) : WriteM Unit := do
  match place.root with
  | .series sid =>
    match place.steps with
    | [.sub args] =>
      let t ← lift (observation (← dataset) args)
      writeObs sid t place.text op rhs
    | _ => fail (.notAddressable place.text)
  | .var vid =>
    let ws ← get
    match ws.vars.get? vid with
    | none => fail (.undefinedSymbol place.text)
    | some slot =>
      let v ← writeInto slot op rhs ⟨ws.dataset, target, place.text⟩ place.steps
      modify fun ws => { ws with vars := ws.vars.setSlot vid v }
  | .fresh name => fail (.undefinedSymbol name)

/-- `place op rhs`. -/
def write (place : Place) (op : AssignOp) (rhs : Operand) (target : DeclaredType) : WriteM Unit :=
  if place.steps.isEmpty then whole place op rhs target else nested place op rhs target

end Assign

end SeriesCalc
