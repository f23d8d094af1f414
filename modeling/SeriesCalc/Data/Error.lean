import SeriesCalc.Value.Error
import SeriesCalc.Value.Word

/-!
# Errors of the dataset and the variable table

These errors come from changing the workspace's storage directly: naming rules, lengths,
the read-only constant series, structure and sample bounds. When a statement meets one, it
becomes an evaluation error (`DataError.toEvalError`): unknown names become undefined
symbols, a wrong length a non-conformable series, the constant series a target that cannot be
assigned, naming errors invalid assignments, and the rest carry their own message.
-/

namespace SeriesCalc

/-- A refused change to the dataset or the variable table. -/
inductive DataError where
  | invalidName (name : String)
  | duplicateName (name : String)
  | unknownSeries (name : String)
  | unknownVar (name : String)
  | lengthMismatch (expected got : Nat)
  | constSeries
  | badStructure (message : String)
  /-- Bounds are 0-based; the message writes them 1-based. -/
  | badSample (t1 t2 nobs : Nat)
deriving Inhabited

namespace DataError

/-- The name of the error, as reports write it. -/
def kindName : DataError → String
  | .invalidName .. => "InvalidName"
  | .duplicateName .. => "DuplicateName"
  | .unknownSeries .. => "UnknownSeries"
  | .unknownVar .. => "UnknownVar"
  | .lengthMismatch .. => "LengthMismatch"
  | .constSeries => "ConstSeries"
  | .badStructure .. => "BadStructure"
  | .badSample .. => "BadSample"

def message : DataError → String
  | .invalidName n => "invalid name: '" ++ n ++ "'"
  | .duplicateName n => "'" ++ n ++ "' is already defined"
  | .unknownSeries n => "no series named '" ++ n ++ "'"
  | .unknownVar n => "no variable named '" ++ n ++ "'"
  | .lengthMismatch e g => s!"series length {g} does not match dataset length {e}"
  | .constSeries => "the constant series is read-only"
  | .badStructure m => s!"invalid data structure: {m}"
  | .badSample t1 t2 n => s!"invalid sample {Word.add t1 1}..{Word.add t2 1} for {n} observations"

/-- The evaluation error a statement reports for this error. -/
def toEvalError (e : DataError) : EvalError :=
  match e with
  | .unknownSeries n | .unknownVar n => (Fault.undefinedSymbol n : EvalError)
  | .lengthMismatch ex g => (Fault.nonConformable "series" (ex, 1) (g, 1) : EvalError)
  | .constSeries => (Fault.notAddressable "const" : EvalError)
  | .invalidName _ | .duplicateName _ => (Fault.invalidAssignment e.message : EvalError)
  | _ => (Fault.custom e.message : EvalError)

end DataError

/-- Names of series and variables: an ASCII letter, then ASCII letters, digits or `_`, at
most 31 characters. -/
def isValidName (name : String) : Bool :=
  match name.toList with
  | c :: rest => c.isAlpha && name.utf8ByteSize ≤ 31 && rest.all fun c => c.isAlphanum || c == '_'
  | [] => false

/-- Series and variables are numbered by 32-bit ids: a table that already holds `idLimit` of
them has no id for another. -/
def idLimit : Nat := Nat.pow 2 32

end SeriesCalc
