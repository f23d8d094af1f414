import SeriesCalc.Eval.Kernel
import SeriesCalc.Value.Basic
import SeriesCalc.Data.Dataset

/-!
# What an operator works with

An operator reads operands and the dataset's sample, and writes the value of its position's
cell. It runs in `OpM`: it may fail, and it updates a `Scratch` of the cell's content and the
warning log. A failed operator leaves the cell as far as it got (an operator that starts
with a fresh list or matrix leaves one behind), which is what the cell counters see.

A series-aligned column (`Column`) lines up a scalar, a series or a column vector of sample
or dataset length against the observation index; `fillSeries` writes a series over the
sample, NA elsewhere.
-/

namespace SeriesCalc

/-- The read-only context of an operator. -/
structure OpEnv where
  ds : Dataset
  /-- The declared type of the statement; a matrix target turns off the zero-times-NA rule. -/
  target : DeclaredType
  /-- The current value of another cell; reading fails when its storage went away or
  changed kind since the cell was bound. -/
  read : Nat → Except EvalError Operand := fun _ => .ok default
deriving Inhabited

/-- Whether `0 * NA` gives 0. -/
def OpEnv.absorb (env : OpEnv) : Bool := env.target != .matrix

/-- A cell's content while an operator updates it, and the warning log. -/
structure Scratch where
  cell : Value
  log : WarningLog
deriving Inhabited

/-- An operator: it may fail, and it updates the cell and the log. -/
abbrev OpM := ExceptT EvalError (StateM Scratch)

namespace OpM

/-- Write the cell. -/
def put (v : Value) : OpM Unit := modify fun s => { s with cell := v }

/-- Run a computation that may record warnings. -/
def warned {α : Type} (w : Warned α) : OpM α :=
  modifyGet fun s => let (a, log) := w.run s.log; (a, { s with log })

/-- Fail with a cause. -/
def fail {α : Type} (f : Fault) : OpM α := throw (f : EvalError)

/-- Lift a result that may fail. -/
def lift {α : Type} (r : Except EvalError α) : OpM α :=
  match r with
  | .ok a => pure a
  | .error e => throw e

/-- Lift a result that may fail with a cause. -/
def liftFault {α : Type} (r : Except Fault α) : OpM α :=
  match r with
  | .ok a => pure a
  | .error f => throw (f : EvalError)

/-- The current value of a cell. -/
def read (env : OpEnv) (id : Nat) : OpM Operand := lift (env.read id)

end OpM

/-- A numeric operand lined up against the observation index. -/
inductive Column where
  | const (x : Float)
  /-- Indexed by observation. -/
  | full (xs : Array Float)
  /-- Indexed by position in the sample starting at `t1`. -/
  | sample (xs : Array Float) (t1 : Nat)
deriving Inhabited

/-- The value at observation `t`; NA past the end. -/
def Column.at (c : Column) (t : Nat) : Float :=
  match c with
  | .const x => x
  | .full xs => xs.getD t NA
  | .sample xs t1 => xs.getD (t - t1) NA

/-- A series-aligned view of an operand: a scalar, a series, or a real column vector as long
as the sample or as the dataset. -/
def Column.of? (o : Operand) (ds : Dataset) : Option Column :=
  match o.scalar? with
  | some x => some (.const x)
  | none =>
    match o.value with
    | .series xs => some (.full xs)
    | .matrix m =>
      match m.real? with
      | some xs =>
        if m.cols != 1 then none
        else if m.rows == ds.sampleLen then some (.sample xs ds.t1)
        else if m.rows == ds.nobs then some (.full xs)
        else none
      | none => none
    | _ => none

/-- The observations of the sample, in order. -/
def Dataset.sampleRange (ds : Dataset) : List Nat :=
  if ds.nobs == 0 then [] else (List.range (ds.t2 + 1)).drop ds.t1

/-- A series over the sample from `f`, NA outside it. -/
def fillSeries (ds : Dataset) (f : Nat → Warned Float) : Warned (Array Float) :=
  ds.sampleRange.foldlM (fun acc t => do return acc.set! t (← f t)) (Array.replicate ds.nobs NA)

/-- A series over the sample from `f`, NA outside it; the first observation where `f` fails
fails the whole series. -/
def fillSeriesChecked (ds : Dataset) (f : Nat → Except Fault Float) : Except Fault (Array Float) :=
  ds.sampleRange.foldlM (fun acc t => do return acc.set! t (← f t)) (Array.replicate ds.nobs NA)

/-- A series over the sample from a function that cannot warn. -/
def fillSeriesPure (ds : Dataset) (f : Nat → Float) : Array Float :=
  ds.sampleRange.foldl (fun acc t => acc.set! t (f t)) (Array.replicate ds.nobs NA)

/-- Every observation of the sample must be stored in `xs`: reading observation by observation
stops everything at the first one that is not, `max t1 xs.size`. -/
def sampleStored (ds : Dataset) (xs : Array Float) : Except Fault Unit :=
  if ds.nobs == 0 || ds.t2 < xs.size then .ok ()
  else .error (Fault.overrun ⟨xs.size, max ds.t1 xs.size⟩)

/-- The sample part of a series' values: none of an empty series, otherwise positions
`t1..t2`, which must all be stored (for an empty dataset the sample is the first position). -/
def sampleValues (ds : Dataset) (xs : Array Float) : Except Fault (Array Float) :=
  if xs.isEmpty then .ok #[] else storedSlice xs ds.t1 ds.t2

/-- A matrix view of a scalar, a matrix, or a series (its sample values as a column). -/
def asMatrix? (o : Operand) (ds : Dataset) : Except Fault (Option Matrix) :=
  match o.value with
  | .matrix m => .ok (some m)
  | .scalar x => .ok (some (Matrix.ofScalar x))
  | .series xs => do return some (Matrix.column (← sampleValues ds xs))
  | _ => .ok none

end SeriesCalc
