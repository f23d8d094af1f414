import SeriesCalc.Value.Kind
import SeriesCalc.Value.Word

/-!
# Evaluation errors and numeric warnings

An evaluation error is a cause (`Fault`) and the notes added while it travels outward
(`in statement: ...`, `in function f`). Its message is a function of the cause alone, so two
errors with the same cause read the same.

One cause is not an error a statement reports: `Fault.abort` stops everything at once, as a
read past the end of stored values does. Nothing recovers from it; the request it happens in
ends with it (`storedAt`, `storedSlice`).

A numeric warning does not stop evaluation: division by zero, an argument outside a
function's domain, or an overflow to infinity turns the element into NA and is recorded in
the `WarningLog`, which counts repeats and keeps the order of first occurrence.
-/

namespace SeriesCalc

/-- What went wrong. -/
inductive Fault where
  | typeMismatch (expected : String) (got : ValueKind)
  | binaryTypeMismatch (op : String) (left right : ValueKind)
  | nonConformable (op : String) (left right : Nat × Nat)
  | indexOutOfBounds (index : Int) (len : Nat)
  | undefinedSymbol (name : String)
  | undefinedMember (key : String)
  | unknownFunction (name : String)
  | arityMismatch (name : String) (min max got : Nat)
  | arrayKindMismatch (expected : Option ArrayKind) (got : ValueKind)
  | notAddressable (what : String)
  | invalidAssignment (message : String)
  | allocationFailure (what : String)
  | domain (what : String)
  | missingData (what : String)
  | recursionLimit (depth : Nat)
  | custom (message : String)
  /-- The computation cannot go on at all. -/
  | abort (message : String)
deriving Inhabited

namespace Fault

/-- The name of the cause, as reports write it. -/
def kindName : Fault → String
  | .typeMismatch .. => "TypeMismatch"
  | .binaryTypeMismatch .. => "BinaryTypeMismatch"
  | .nonConformable .. => "NonConformable"
  | .indexOutOfBounds .. => "IndexOutOfBounds"
  | .undefinedSymbol .. => "UndefinedSymbol"
  | .undefinedMember .. => "UndefinedMember"
  | .unknownFunction .. => "UnknownFunction"
  | .arityMismatch .. => "ArityMismatch"
  | .arrayKindMismatch .. => "ArrayKindMismatch"
  | .notAddressable .. => "NotAddressable"
  | .invalidAssignment .. => "InvalidAssignment"
  | .allocationFailure .. => "AllocationFailure"
  | .domain .. => "Domain"
  | .missingData .. => "MissingData"
  | .recursionLimit .. => "RecursionLimit"
  | .custom .. => "Custom"
  | .abort .. => "panic"

/-- The message of a cause. -/
def message : Fault → String
  | .typeMismatch expected got => s!"type mismatch: expected {expected}, got {got.name}"
  | .binaryTypeMismatch op l r =>
    "operator " ++ "\x60" ++ op ++ "\x60" ++ s!" cannot be applied to {l.name} and {r.name}"
  | .nonConformable op (l0, l1) (r0, r1) =>
    s!"non-conformable operands for {op}: {l0} x {l1} and {r0} x {r1}"
  | .indexOutOfBounds i n => s!"index {i} out of bounds (valid range 1 to {n})"
  | .undefinedSymbol name => s!"undefined symbol: {name}"
  | .undefinedMember key => "no member \"" ++ key ++ "\" in bundle"
  | .unknownFunction name => s!"unknown function: {name}"
  | .arityMismatch name lo hi got =>
    if lo == hi then
      s!"{name} expects {lo} " ++ (if lo == 1 then "argument" else "arguments") ++ s!", got {got}"
    else s!"{name} expects {lo} to {hi} arguments, got {got}"
  | .arrayKindMismatch (some k) got => s!"cannot store {got.name} in array of {k.name}"
  | .arrayKindMismatch none got => s!"{got.name} cannot be an array element"
  | .notAddressable what => s!"cannot assign to {what}"
  | .invalidAssignment m => s!"invalid assignment: {m}"
  | .allocationFailure what => s!"out of memory allocating {what}"
  | .domain what => s!"domain error: {what}"
  | .missingData what => s!"missing values in {what}"
  | .recursionLimit d => s!"maximum recursion depth exceeded (limit: {d})"
  | .custom m => m
  | .abort m => m

/-- The message of a stop, if the cause is one. -/
def abort? : Fault → Option String
  | .abort m => some m
  | _ => none

/-- The stop of an access past the end of stored data. -/
def overrun (o : Overrun) : Fault :=
  .abort s!"index out of bounds: the len is {o.len} but the index is {o.index}"

/-- The largest block of memory, in bytes: `2^63 - 1`. -/
def maxBlock : Nat := Nat.pow 2 63 - 1

/-- The most memory a request may use, in bytes: `2^36` (64 GiB). -/
def maxMemory : Nat := Nat.pow 2 36

/-- The stop of holding `n` items of `size` bytes each in one block, if it cannot be held: a
block larger than `maxBlock` overflows its capacity, and one larger than `maxMemory` cannot be
allocated. -/
def allocation? (n size : Nat) : Option Fault :=
  if n * size > maxBlock then some (.abort "capacity overflow")
  else if n * size > maxMemory then some (.abort s!"memory allocation of {n * size} bytes failed")
  else none

/-- Stop at an overrun, if there is one. -/
def check (o : Option Overrun) : Except Fault Unit :=
  match o with
  | some o => .error (overrun o)
  | none => .ok ()

end Fault

/-- An evaluation error: its cause and the notes added on the way out, oldest first. -/
structure EvalError where
  fault : Fault
  notes : List String := []
deriving Inhabited

namespace EvalError

def message (e : EvalError) : String := e.fault.message

/-- Whether the error stops everything. -/
def isAbort (e : EvalError) : Bool := e.fault.abort?.isSome

/-- Add a note at the end. -/
def withNote (e : EvalError) (note : String) : EvalError := { e with notes := e.notes ++ [note] }

/-- The message followed by one `note:` line per note. -/
def display (e : EvalError) : String :=
  e.notes.foldl (fun acc n => acc ++ "\n  note: " ++ n) e.message

end EvalError

/-- Errors are built from their cause. -/
instance : Coe Fault EvalError := ⟨fun f => { fault := f }⟩

/-- A computation that can only fault, seen as one that fails with an evaluation error. -/
def Fault.raise {α : Type} (r : Except Fault α) : Except EvalError α :=
  match r with
  | .ok a => .ok a
  | .error f => .error { fault := f }

/-- The stored value at position `t`, which must exist. -/
def storedAt {α : Type} (xs : Array α) (t : Nat) : Except Fault α :=
  if h : t < xs.size then .ok xs[t]
  else .error (Fault.overrun ⟨xs.size, t⟩)

/-- The stored values at positions `t1..t2` (`t1 ≤ t2`), which must all exist. -/
def storedSlice {α : Type} (xs : Array α) (t1 t2 : Nat) : Except Fault (Array α) :=
  if xs.size < t2 + 1 then
    .error (.abort s!"range end index {t2 + 1} out of range for slice of length {xs.size}")
  else .ok (xs.extract t1 (t2 + 1))

/-- A numeric condition that makes an element NA without stopping evaluation. -/
inductive Warning where
  | divisionByZero
  | domain (what : String)
  | nonFinite
deriving DecidableEq, BEq, Inhabited, Repr

namespace Warning

def text : Warning → String
  | .divisionByZero => "division by zero"
  | .domain what => s!"argument out of domain in {what}"
  | .nonFinite => "non-finite result"

/-- Constructor text as a debug listing writes it. -/
def debugText : Warning → String
  | .divisionByZero => "DivisionByZero"
  | .domain what => "Domain \x7b what: \"" ++ what ++ "\" \x7d"
  | .nonFinite => "NonFinite"

end Warning

/-- Recorded warnings with their counts, in order of first occurrence. -/
structure WarningLog where
  entries : List (Warning × Nat) := []
deriving Inhabited

namespace WarningLog

/-- Count one more occurrence of `w`. -/
def record (log : WarningLog) (w : Warning) : WarningLog :=
  if log.entries.any (·.1 == w) then
    ⟨log.entries.map fun (v, n) => if v == w then (v, n + 1) else (v, n)⟩
  else ⟨log.entries ++ [(w, 1)]⟩

def isEmpty (log : WarningLog) : Bool := log.entries.isEmpty

end WarningLog

end SeriesCalc
