import SeriesCalc.Data.Error

/-!
# Requests that end without answers

A request normally gets one answer per step. It gets none when it is malformed, when the
dataset or the variable table refuses its setup, or when a step breaks an invariant of the
machine (an access past the end of stored data, a label in a panel without periods). `Halt`
is that outcome; the decoders' refusals (`Except String`) lift into it as malformed input.
-/

namespace SeriesCalc

/-- Why a request ends without answers: it is malformed, its setup was refused by the dataset
or the variable table, or one of its steps broke an invariant of the machine. -/
inductive Halt where
  | badInput (message : String)
  | data (e : DataError)
  | panic (message : String)
deriving Inhabited

instance : MonadLift (Except String) (Except Halt) where
  monadLift r := match r with
    | .ok a => .ok a
    | .error m => .error (.badInput m)

namespace Halt

/-- Refuse a malformed request. -/
def refuse {α : Type} (message : String) : Except Halt α := .error (.badInput message)

/-- Take a dataset or variable result, ending the request on an error. -/
def ofData {α : Type} (r : Except DataError α) : Except Halt α :=
  match r with
  | .ok a => .ok a
  | .error e => .error (.data e)

/-- End the request at an access past the end of stored data, if there is one. -/
def check (o : Option Overrun) : Except Halt Unit :=
  match o with
  | some o => .error (.panic (Fault.overrun o).message)
  | none => .ok ()

/-- End the request if `n` items of `size` bytes each cannot be held (`Fault.allocation?`). -/
def allocate (n size : Nat) : Except Halt Unit :=
  match Fault.allocation? n size with
  | some f => .error (.panic f.message)
  | none => .ok ()

end Halt

end SeriesCalc
