import SeriesCalc.Session.Probe

/-!
# Sessions

A session is a workspace and the statements saved by name. A request sets the workspace up
(dataset, variables, functions, settings) and then runs its steps in order; each step gives
one answer, which carries the warnings the step recorded (the log is drained after every
step) and the state of the workspace after it.

* `Session.setup`: the workspace a request describes, or the dataset or variable error that
  refuses it;
* `Session.step`: one step: run or rerun a statement, change the dataset or the variables,
  define functions, or report on statements, tables and values;
* `Session.answer`: a step with its warnings and the state.

A step that is itself malformed refuses the whole request, and so does a step that breaks an
invariant of the machine: reading past the stored values of a series that is shorter than the
dataset, or labelling an observation of a panel with no periods. Such a request ends with a
`Halt` instead of answers.
-/

namespace SeriesCalc

/-- A workspace and the statements saved by name. -/
structure Session where
  ws : Workspace
  saved : List (String × Runnable) := []
deriving Inhabited

/-- Fields of one answer. -/
abbrev Fields := List (String × Json)

namespace Session

open Decode

/-- Keep a statement under a name, replacing any kept before. -/
def save (s : Session) (name : String) (r : Runnable) : Session :=
  { s with saved := (name, r) :: s.saved.filter (·.1 != name) }

def savedAs (s : Session) (name : String) : Except String Runnable :=
  match s.saved.lookup name with
  | some r => .ok r
  | none => bad s!"no statement saved as {name}"

def withDataset (s : Session) (ds : Dataset) : Session := { s with ws := { s.ws with dataset := ds } }

def withVars (s : Session) (vt : VarTable) : Session := { s with ws := { s.ws with vars := vt } }

/-- Run a statement; a run that broke an invariant of the machine ends the request. -/
def run (s : Session) (r : Runnable) : Except Halt (Session × Runnable × Except EvalError Value) :=
  let (ws, r, res) := r.evaluate s.ws
  match res with
  | .error e =>
    match e.fault.abort? with
    | some m => .error (.panic m)
    | none => .ok ({ s with ws }, r, res)
  | .ok _ => .ok ({ s with ws }, r, res)

/-- The answer to a run: the value of a bare expression, `ok` for an assignment, or the
error. -/
def outcome (stmt : Statement) : Except EvalError Value → Fields
  | .ok v => if stmt.lhs.isSome then [("ok", .bool true)] else [("value", Encode.value v)]
  | .error e => Encode.evalError e

/-- The answer to a dataset change. -/
def dataChange (s : Session) : Except DataError Dataset → Session × Fields
  | .ok ds => (s.withDataset ds, [("ok", .bool true)])
  | .error e => (s, Encode.dataError e)

/-- The answer to a variable change. -/
def varsChange (s : Session) : Except DataError VarTable → Session × Fields
  | .ok vt => (s.withVars vt, [("ok", .bool true)])
  | .error e => (s, Encode.dataError e)

/-- A series by name, or the error naming it. -/
def seriesId (ds : Dataset) (name : String) : Except DataError Nat :=
  match ds.lookup name with
  | some id => .ok id
  | none => .error (.unknownSeries name)

/-- Replace the values of a named series. -/
def setValues (ds : Dataset) (name : String) (xs : Array Float) : Except DataError Dataset := do
  let id ← seriesId ds name
  ds.modifySeries id fun s => { s with values := xs }

/-- What the state of a saved statement reports. -/
def statsOf (r : Runnable) : Json :=
  let c := r.cells.counters
  .obj [("allocated", .int c.allocated), ("reused", .int c.reused), ("retagged", .int c.retagged),
    ("discarded", .int c.discarded), ("live", .int r.cells.live), ("starting", .bool r.cells.starting)]

/-- What a saved statement reports about itself. -/
def savedInfo (r : Runnable) : Fields :=
  let st := r.stmt
  let debug := "Genr \x7b text: " ++ debugQuoted st.text ++ ", target: " ++ st.declared.debugName ++
    ", compiled: " ++ toString st.compiled ++ ", live_nodes: " ++ toString r.cells.live ++ " \x7d"
  [("any", .bool st.declared.isAny), ("compiled", .bool st.compiled), ("debug", .str debug),
   ("target", .str st.declared.name), ("target_debug", .str st.declared.debugName),
   ("text", .str st.text), ("value_kind", Encode.opt (fun k => .str k.name) st.declared.valueKind?)]

/-- What the function table reports. -/
def functionsInfo (t : FunctionTable) (names : List String) : Fields :=
  [("shared", .str s!"SharedFunctions({t.size} functions)"),
   ("table", .str ("FunctionTable \x7b functions: [" ++ ", ".intercalate (t.names.map debugQuoted) ++ "] \x7d")),
   ("len", .int t.size), ("empty", .bool (t.size == 0)), ("same_table", .bool true),
   ("other_table", .bool false), ("contains", .arr (names.map fun n => .bool (t.contains n)))]

/-- What a function reports about itself. -/
def functionInfo (f : UserFunction) : Fields :=
  [("debug", .str f.debugText), ("name", .str f.name),
   ("params", .arr (f.params.map fun p =>
     .arr [.str p.name, .str p.declared.name, .bool p.byRef, .str p.debugText])),
   ("returns", Encode.opt (fun (t, _) => .str (DeclaredType.name t)) f.returns)]

/-- What the builtin table reports; an empty table when the library is absent. -/
def builtinsInfo (library : Bool) (names : List String) : Fields :=
  let table := if library then Builtin.all else []
  let sorted := if library then Builtin.sortedNames else []
  let signature := fun (n : String) =>
    match table.find? (·.name == n) with
    | some b =>
      .obj [("contains", .bool true), ("min", .int b.signature.min), ("max", .int b.signature.max),
        ("debug", .str b.debugText)]
    | none => .obj [("contains", .bool false)]
  [("shared", .str s!"SharedBuiltins({table.length} builtins)"),
   ("table", .str ("BuiltinTable \x7b names: [" ++ ", ".intercalate (sorted.map debugQuoted) ++ "] \x7d")),
   ("len", .int table.length), ("empty", .bool table.isEmpty), ("signatures", .arr (names.map signature))]

/-- What the settings report. -/
def configInfo (ws : Workspace) : Fields :=
  [("depth_limit", .int ws.config.maxDepth), ("compiles", .bool ws.config.compile),
   ("policy", .str (if ws.config.policy == .fail then "Error" else "Record")),
   ("in_function", .bool ws.inFunction)]

/-- What the dataset reports. -/
def datasetInfo (ds : Dataset) : Fields :=
  [("structure", .str ds.shape.debugText), ("num_series", .int ds.series.size),
   ("has_markers", .bool ds.markers.isSome), ("sample_len", .int ds.sampleLen), ("epoch", .int ds.epoch),
   ("labels", .arr ((List.range ds.nobs).map fun t => .str (ds.obsLabel t))),
   ("series", .arr (ds.series.toList.zipIdx.map fun (s, i) =>
     .obj [("id", .str (Encode.seriesIdText i)), ("name", .str s.name), ("len", .int s.values.size),
       ("categorical", .bool s.categories.isSome), ("lookup", Encode.opt .int (ds.lookup s.name))]))]

/-- What the variable table reports about some names. -/
def varsInfo (vt : VarTable) (names : List String) : Fields :=
  [("len", .int vt.size), ("empty", .bool (vt.size == 0)), ("epoch", .int vt.epoch),
   ("vars", .arr (names.map fun n =>
     let id := vt.lookup n
     .obj [("id", Encode.opt (fun i => .str (varText i)) id),
       ("name_of", Encode.opt .str (id.bind vt.nameOf?)),
       ("value", Encode.opt Encode.value (id.bind vt.get?))]))]

/-- What the label table of a series reports, with lookups of codes and words and the codes
interning words into a copy would give. -/
def stringsInfo (t : Categories) (codes : Option (List Float)) (words interned : Option (List String)) : Fields :=
  let copy := (interned.getD []).foldl (fun (c, acc) w => let (c, k) := c.intern w; (c, acc ++ [k])) (t, [])
  [("strings", Encode.strs t.labels.toList), ("len", .int t.size), ("empty", .bool (t.size == 0)),
   ("get", Encode.opt (fun cs => .arr (cs.map fun c => Encode.opt .str (t.label? c))) codes),
   ("code_of", Encode.opt (fun ws => .arr (ws.map fun w => Encode.opt Encode.num (t.codeOf? w))) words),
   ("intern", Encode.opt (fun _ => .arr (copy.2.map Encode.num)) interned),
   ("after_intern", Encode.strs copy.1.labels.toList), ("unchanged", .bool (copy.1 == t)),
   ("fresh_empty", .bool true)]

/-- What an operator symbol or type keyword is. -/
def opInfo (s : String) : Json :=
  match BinaryOp.ofSymbol? s with
  | some op =>
    .obj [("symbol", .str op.symbol), ("dot", .bool op.isDot), ("comparison", .bool op.isComparison),
      ("logical", .bool op.isLogical), ("elementwise", .str op.elementwise.symbol)]
  | none =>
    match AssignOp.ofSymbol? s with
    | some op =>
      .obj [("symbol", .str op.symbol), ("inflected", .bool op.isInflected), ("unary", .bool op.isUnary),
        ("binary", Encode.opt (fun b => .str b.symbol) op.binary?)]
    | none =>
      let unary : Option UnaryOp := match s with
        | "neg" => some .neg
        | "pos" => some .plus
        | "not" => some .not
        | "tr" => some .transpose
        | _ => none
      match unary, DeclaredType.ofKeyword? s with
      | some op, _ => .obj [("symbol", .str op.symbol)]
      | none, some t => .obj [("type", .str t.name), ("kind", Encode.opt (fun k => .str k.name) t.valueKind?)]
      | none, none => .null

/-- What the forest of a statement holds. -/
def treeInfo (st : Statement) : Fields :=
  let f := st.forest
  let root := (st.rhs.orElse fun _ => st.lhs).getD invalidPos
  [("nodes", .int f.size), ("empty", .bool (f.size == 0)), ("root", .str (posText root)),
   ("root_raw", .int root), ("root_valid", .bool (root != invalidPos)), ("display", .str (f.display root)),
   ("invalid", .str (f.display invalidPos)), ("kinds", .arr (f.nodes.toList.map fun n => .str n.debugText))]

/-- A pair of names. -/
def twoNames (j : Json) : Except String (String × String) := do
  match ← list str j with
  | [a, b] => return (a, b)
  | _ => bad "expected two names"

open Halt in
/-- Run one step; the answer's fields before warnings and state. -/
def step (fuel : Nat) (s : Session) (j : Json) : Except Halt (Session × Fields) := do
  let some key := j.keys.find? (· != "save") | refuse "empty step"
  let arg ← field j key
  let build := fun (x : Json) => do (← statement fuel x).build s.ws.config.compile
  match key with
  | "stmt" =>
    let stmt ← build arg
    let (s, r, res) ← s.run { stmt }
    let s := match j.get? "save" with
      | some (.str name) => s.save name r
      | _ => s
    return (s, outcome stmt res)
  | "rerun" =>
    let name ← str arg
    let r ← s.savedAs name
    let (s, r, res) ← s.run r
    return (s.save name r, outcome r.stmt res)
  | "stats" => return (s, [("stats", statsOf (← s.savedAs (← str arg)))])
  | "text" => return (s, [("text", .str (← build arg).text)])
  | "set_sample" =>
    match ← list nat arg with
    | [t1, t2] => return s.dataChange (s.ws.dataset.setSample t1 t2)
    | _ => refuse "set_sample needs two bounds"
  | "full_sample" => return s.dataChange (.ok s.ws.dataset.fullSample)
  | "resize" =>
    let n ← nat arg
    -- every series grows to `n` values, unless the dataset is a panel, which refuses first
    match s.ws.dataset.shape with
    | .panel .. => pure ()
    | _ => allocate n 8
    return s.dataChange (s.ws.dataset.resize n)
  | "set_structure" => return s.dataChange (s.ws.dataset.setShape (← dataShape arg))
  | "add_series" =>
    let name ← strField arg "name"
    let some xs ← optField nums arg "values" | refuse "add_series needs values"
    return s.dataChange ((·.1) <$> s.ws.dataset.addSeries name xs)
  | "set_values" =>
    let name ← strField arg "name"
    let xs ← nums (← field arg "values")
    if xs.size != s.ws.dataset.nobs then refuse "set_values length must equal nobs"
    return s.dataChange (setValues s.ws.dataset name xs)
  | "rename_series" =>
    let (old, new) ← twoNames arg
    let ds := s.ws.dataset
    return s.dataChange (do ds.renameSeries (← seriesId ds old) new)
  | "delete_series" =>
    let ds := s.ws.dataset
    let name ← str arg
    return s.dataChange (do ds.deleteSeries (← seriesId ds name))
  | "set_strings" =>
    let ds := s.ws.dataset
    let name ← strField arg "name"
    let labels ← nullableField (list str) arg "strings"
    return s.dataChange (do ds.setCategories (← seriesId ds name) (labels.map Categories.ofList))
  | "set_markers" => return s.dataChange (s.ws.dataset.setMarkers (← list str arg).toArray)
  | "obs_label" =>
    let t ← nat arg
    if s.ws.dataset.labelUndefined t then throw (.panic "attempt to divide by zero")
    return (s, [("label", .str (s.ws.dataset.obsLabel t))])
  | "find_obs" => return (s, [("obs", Encode.opt .int (s.ws.dataset.findObs (← str arg)))])
  | "lag_source" =>
    match arg with
    | .arr [t, off] => return (s, [("src", Encode.opt .int (s.ws.dataset.lagSource (← nat t) (← int off)))])
    | _ => refuse "lag_source needs an observation and an offset"
  | "set_var" =>
    match arg with
    | .arr [.str name, v] =>
      let v ← value fuel v
      return s.varsChange ((·.1) <$> s.ws.vars.insert name v)
    | _ => refuse "set_var needs a name and a value"
  | "remove_var" => return s.varsChange ((·.1) <$> s.ws.vars.remove (← str arg))
  | "rename_var" =>
    let (old, new) ← twoNames arg
    return s.varsChange (s.ws.vars.rename old new)
  | "define" =>
    let f ← function fuel arg
    return ({ s with ws := { s.ws with functions := s.ws.functions.define f } }, [("ok", .bool true)])
  | "undefine" =>
    let (t, removed) := s.ws.functions.remove (← str arg)
    return ({ s with ws := { s.ws with functions := t } }, [("removed", .bool removed)])
  | "inspect" =>
    let stmt ← build arg
    let (s, _, res) ← s.run { stmt }
    let log : Fields := [("log", Encode.warningLog s.ws.warnings), ("log_empty", .bool s.ws.warnings.isEmpty),
      ("in_function", .bool s.ws.inFunction)]
    match res with
    | .ok v =>
      check v.displayOverrun
      return (s, Encode.describe v ++ log)
    | .error e => return (s, Encode.evalError e ++ [("display", .str e.display)] ++ log)
  | "equal" =>
    match arg with
    | .arr [a, b] =>
      let sa ← build a
      let sb ← build b
      let (s, _, ra) ← s.run { stmt := sa }
      match ra with
      | .error e => return (s, Encode.evalError e)
      | .ok va =>
        let (s, _, rb) ← s.run { stmt := sb }
        match rb with
        | .error e => return (s, Encode.evalError e)
        | .ok vb => return (s, [("equal", .bool (va.same vb))])
    | _ => refuse "equal needs two statements"
  | "genr" => return (s, savedInfo (← s.savedAs (← str arg)))
  | "fresh" =>
    let (name, new) ← twoNames arg
    let r ← s.savedAs name
    return (s.save new r.fresh, [("ok", .bool true)])
  | "functions_info" => return (s, functionsInfo s.ws.functions (← list str arg))
  | "function_info" => return (s, functionInfo (← function fuel arg))
  | "builtins_info" => return (s, builtinsInfo s.ws.library (← list str arg))
  | "config_info" => return (s, configInfo s.ws)
  | "dataset_info" => return (s, datasetInfo s.ws.dataset)
  | "vars_info" => return (s, varsInfo s.ws.vars (← list str arg))
  | "take_var" =>
    let name ← str arg
    match s.ws.vars.lookup name with
    | none => return (s, Encode.dataError (.unknownVar name))
    | some id =>
      let (during, taken) := s.ws.vars.take id
      return (s, [("taken", Encode.opt Encode.value taken), ("during", Encode.opt Encode.value (during.get? id))])
  | "strings_info" =>
    let name ← strField arg "name"
    let codes ← optField (list num) arg "codes"
    let words ← optField (list str) arg "words"
    let interned ← optField (list str) arg "intern"
    match seriesId s.ws.dataset name with
    | .error e => return (s, Encode.dataError e)
    | .ok id =>
      match (s.ws.dataset.get? id).bind (·.categories) with
      | none => return (s, [("strings", .null)])
      | some t => return (s, stringsInfo t codes words interned)
  | "ops" => return (s, [("ops", .arr ((← list str arg).map opInfo))])
  | "tree" => return (s, treeInfo (← build arg))
  | "matrix_api" => return (s, ← Probe.matrix fuel arg)
  | "value_api" => return (s, ← Probe.value fuel arg)
  | _ => refuse s!"unknown step {key}"

/-- One step's answer: its fields, the warnings it recorded (drained from the log), and the
state after it. -/
def answer (fuel : Nat) (s : Session) (j : Json) : Except Halt (Session × Json) := do
  let (s, fields) ← s.step fuel j
  let log := s.ws.warnings
  let s := { s with ws := { s.ws with warnings := {} } }
  let warned : Fields := if log.isEmpty then [] else [("warnings", Encode.warnings log)]
  return (s, .obj (fields ++ warned ++ [("state", Encode.state s.ws)]))

open Halt in
/-- The dataset a request describes, built as it is read: the shape, then each series in
order with its labels, then the markers, then the sample. -/
def dataset (j : Json) : Except Halt Dataset := do
  let nobs ← (·.getD 0) <$> optField nat j "nobs"
  let shape ← optField dataShape j "structure"
  allocate nobs 8
  let ds ← ofData (match shape with
    | some sh => Dataset.withShape nobs sh
    | none => .ok (Dataset.create nobs))
  let series ← (·.getD []) <$> optField (list pure) j "series"
  let ds ← series.foldlM (fun ds spec => do
    let name ← strField spec "name"
    let xs ← (·.getD (Array.replicate nobs NA)) <$> optField nums spec "values"
    let labels ← optField (list str) spec "strings"
    let (ds, id) ← ofData (ds.addSeries name xs)
    match labels with
    | some ls => ofData (ds.setCategories id (some (Categories.ofList ls)))
    | none => pure ds) ds
  let ds ← match ← optField (list str) j "markers" with
    | some ms => ofData (ds.setMarkers ms.toArray)
    | none => pure ds
  let ds ← match ← optField (list nat) j "sample" with
    | none => pure ds
    | some [t1, t2] => ofData (ds.setSample t1 t2)
    | some _ => refuse "sample needs two bounds"
  return { ds with modified := false }

/-- The settings a request describes, and whether the builtin library is present. Every
setting has a default that stands for a missing or unreadable value. -/
def config (j : Json) : Config × Bool :=
  let maxDepth := ((j.get? "max_depth").bind Json.asNat?).getD 256
  let compile := ((j.get? "compile").bind Json.asBool?).getD false
  let policy := if (j.get? "warnings").bind Json.asStr? == some "error" then WarningPolicy.fail else .record
  let library := (j.get? "builtins").bind Json.asStr? != some "none"
  ({ maxDepth, compile, policy }, library)

open Halt in
/-- The session a request describes: dataset, variables, functions and settings, in that
order, each variable inserted as it is read. -/
def setup (fuel : Nat) (j : Json) : Except Halt Session := do
  let ds ← match j.get? "dataset" with
    | none => pure (Dataset.create 0)
    | some d => dataset d
  let vars ← (·.getD []) <$> optField (list pure) j "vars"
  let vt ← vars.foldlM (fun vt p => match p with
    | .arr [.str n, v] => do ofData ((·.1) <$> vt.insert n (← value fuel v))
    | _ => refuse "bad variable") ({} : VarTable)
  let fns ← (·.getD []) <$> optField (list (function fuel)) j "functions"
  let functions := fns.foldl FunctionTable.define {}
  let (cfg, library) := match j.get? "config" with
    | none => (({} : Config), true)
    | some c => config c
  return { ws := { dataset := ds, vars := vt, functions, library, config := cfg } }

end Session

end SeriesCalc
