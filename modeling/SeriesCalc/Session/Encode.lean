import SeriesCalc.Session.Json
import SeriesCalc.Eval.Run

/-!
# Reports as JSON

How a session writes what it computed:

* `Encode.num`: a finite float as a JSON number, NA as `"NA"`, the infinities as `"inf"` and
  `"-inf"`;
* `Encode.value`: a value as a tagged object (`type` plus the fields of its kind); matrix
  entries are column-major, with `im` exactly when the storage is complex;
* `Encode.describe`: what the accessors of a value say about it (kind, display, scalar view,
  and the facts of its kind);
* `Encode.state`: the dataset and the variables after a step;
* `Encode.evalError`, `Encode.dataError`: the fields of a failed step.
-/

namespace SeriesCalc

namespace Encode

/-- A float: a number when finite, else `"NA"`, `"inf"` or `"-inf"`. -/
def num (x : Float) : Json :=
  if x.isNaN then .str "NA"
  else if x.isInf then .str (if x > 0 then "inf" else "-inf")
  else .num x

def nums (xs : Array Float) : Json := .arr (xs.toList.map num)

def nat (n : Nat) : Json := .int n

def strs (ss : List String) : Json := .arr (ss.map .str)

/-- An optional field value: `null` when absent. -/
def opt {α : Type} (f : α → Json) : Option α → Json
  | some a => f a
  | none => .null

/-- A matrix as a tagged object. -/
def matrix (m : Matrix) : Json :=
  let data := match m.entries with
    | .real xs => [("re", nums xs)]
    | .complex zs => [("re", nums (zs.map (·.re))), ("im", nums (zs.map (·.im)))]
  let span := match m.span with
    | some s => [("span", .arr [nat s.t1, nat s.t2])]
    | none => []
  .obj ([("type", .str "matrix"), ("rows", nat m.rows), ("cols", nat m.cols)] ++ data ++ span)

mutual

/-- A value as a tagged object. -/
def value : Value → Json
  | .null => .obj [("type", .str "null")]
  | .scalar x => .obj [("type", .str "scalar"), ("value", num x)]
  | .series xs => .obj [("type", .str "series"), ("values", nums xs)]
  | .matrix m => matrix m
  | .str s => .obj [("type", .str "string"), ("value", .str s)]
  | .list ids => .obj [("type", .str "list"), ("ids", .arr (ids.map nat))]
  | .bundle ms => .obj [("type", .str "bundle"), ("members", .arr (members ms))]
  | .array k items =>
    .obj [("type", .str "array"), ("kind", opt (fun k => .str k.name) k), ("items", .arr (values items))]

def members : List (String × Value) → List Json
  | [] => []
  | (k, v) :: rest => .arr [.str k, value v] :: members rest

def values : List Value → List Json
  | [] => []
  | v :: rest => value v :: values rest

end

/-- Debug text of a series id. -/
def seriesIdText (id : Nat) : String := s!"SeriesId({id})"

/-- The facts the accessors of a matrix report. -/
def matrixFacts (m : Matrix) : Json :=
  .obj [("shape", .arr [nat m.rows, nat m.cols]), ("len", nat m.size), ("empty", .bool m.isEmpty),
    ("scalar", .bool m.isScalar), ("vector", .bool m.isVector), ("square", .bool m.isSquare),
    ("complex", .bool m.isComplex), ("zero_one", .bool m.isZeroOne)]

/-- What the accessors of a value report: display text, kind, whether it is null, its scalar
view, the array kind that would hold it, and the facts of its kind. -/
def describe (v : Value) : List (String × Json) :=
  let common : List (String × Json) :=
    [("display", .str v.display), ("kind", .str v.kind.name), ("undefined", .bool v.isNull),
     ("scalar", opt num v.scalar?), ("array_kind", opt (fun k => .str k.name) v.arrayKind?)]
  let extra : List (String × Json) := match v with
    | .series xs => [("len", nat xs.size)]
    | .str s => [("chars", nat s.length)]
    | .matrix m => [("matrix", matrixFacts m)]
    | .bundle ms => [("keys", strs (ms.map (·.1))), ("len", nat ms.length), ("empty", .bool ms.isEmpty)]
    | .list ids =>
      [("ids", strs (ids.map toString)), ("debug", strs (ids.map seriesIdText)),
       ("len", nat ids.length), ("empty", .bool ids.isEmpty)]
    | .array k items =>
      [("len", nat items.length), ("empty", .bool items.isEmpty),
       ("element_kind", opt (fun k => .str k.elementKind.name) k)]
    | _ => []
  common ++ extra

/-- A series of the state: name, values and, for a string-valued series, its labels. -/
def series (s : Series) : Json :=
  let labels := match s.categories with
    | some t => [("strings", strs t.labels.toList)]
    | none => []
  .obj ([("name", .str s.name), ("values", nums s.values)] ++ labels)

/-- The dataset and the variables. -/
def state (ws : Workspace) : Json :=
  let ds := ws.dataset
  .obj [("nobs", nat ds.nobs), ("sample", .arr [nat ds.t1, nat ds.t2]), ("modified", .bool ds.modified),
    ("series", .arr (ds.series.toList.map series)),
    ("vars", .arr (ws.vars.entries.map fun (_, n, v) => .arr [.str n, value v]))]

/-- The fields of an evaluation error. -/
def evalError (e : EvalError) : List (String × Json) :=
  [("error", .str e.fault.kindName), ("message", .str e.message), ("notes", strs e.notes)]

/-- The fields of a refused dataset or variable change. -/
def dataError (e : DataError) : List (String × Json) :=
  [("error", .str ("DataError::" ++ e.kindName)), ("message", .str e.message)]

/-- Recorded warnings as `[text, count]` pairs. -/
def warnings (log : WarningLog) : Json :=
  .arr (log.entries.map fun (w, n) => .arr [.str w.text, nat n])

/-- Recorded warnings as `[debug text, count]` pairs. -/
def warningLog (log : WarningLog) : Json :=
  .arr (log.entries.map fun (w, n) => .arr [.str w.debugText, nat n])

end Encode

end SeriesCalc
