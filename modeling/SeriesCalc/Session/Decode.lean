import SeriesCalc.Session.Json
import SeriesCalc.Session.Halt
import SeriesCalc.Expr.Build
import SeriesCalc.Eval.Run

/-!
# Reading requests

How a session reads what it is asked to do. Every reader gives the thing read or a
description of what is wrong with the request; a wrong request is refused as a whole.

A field that is present is read, `null` included, so a `null` where a number belongs is as
wrong as any other non-number; only the fields that say so treat `null` as absent. Counts
and positions are 64-bit words, series ids 32-bit words.

* `Decode.num`: a number, or `"NA"`/`"nan"`, `"inf"`, `"-inf"`;
* `Decode.value`: a tagged value; a bundle keeps the first position and the last value of a
  repeated key, an array admits its items one by one;
* `Decode.expr`: an expression tree in its list form (`["+", l, r]`, `["call", f, ...]`, ...);
* `Decode.statement`, `StatementForm.build`: a statement, built into one forest, target first;
* `Decode.function`, `Decode.dataShape`.

The nested readers take `fuel`, an upper bound on the nesting depth; the length of the request
text is always enough.
-/

namespace SeriesCalc

namespace Json

def asNat? : Json → Option Nat
  | .int n => if n ≥ 0 then some n.toNat else none
  | _ => none

def asInt? : Json → Option Int
  | .int n => some n
  | _ => none

def asStr? : Json → Option String
  | .str s => some s
  | _ => none

def asBool? : Json → Option Bool
  | .bool b => some b
  | _ => none

end Json

/-- A statement as requested, before it is built. -/
structure StatementForm where
  lhs : Option Shape := none
  op : AssignOp := .assign
  rhs : Option Shape := none
  declared : DeclaredType := .any
  compiled : Option Bool := none
deriving Inhabited

namespace Decode

/-- A refusal naming what is wrong. -/
def bad {α : Type} (what : String) : Except String α := .error what

def field (j : Json) (key : String) : Except String Json :=
  match j.get? key with
  | some v => .ok v
  | none => bad s!"missing field {key}"

def nat (j : Json) : Except String Nat :=
  match j.asNat? with
  | some n => .ok n
  | none => bad ("expected non-negative integer, got " ++ j.render)

def int (j : Json) : Except String Int :=
  match j.asInt? with
  | some n => .ok n
  | none => bad ("expected integer, got " ++ j.render)

def str (j : Json) : Except String String :=
  match j.asStr? with
  | some s => .ok s
  | none => bad ("expected string, got " ++ j.render)

def bool (j : Json) : Except String Bool :=
  match j.asBool? with
  | some b => .ok b
  | none => bad ("expected bool, got " ++ j.render)

def list {α : Type} (f : Json → Except String α) (j : Json) : Except String (List α) :=
  match j with
  | .arr xs => xs.mapM f
  | _ => bad ("expected array, got " ++ j.render)

/-- The largest series id. -/
def idLimit : Nat := Nat.pow 2 32 - 1

/-- A series id: a count no larger than `idLimit`, or the refusal `tooBig`. -/
def seriesId (tooBig : String) (j : Json) : Except String Nat := do
  let n ← nat j
  if n > idLimit then bad tooBig else return n

def natField (j : Json) (key : String) : Except String Nat := do nat (← field j key)

def strField (j : Json) (key : String) : Except String String := do str (← field j key)

/-- An optional field, read whenever present. -/
def optField {α : Type} (f : Json → Except String α) (j : Json) (key : String) : Except String (Option α) :=
  match j.get? key with
  | none => .ok none
  | some v => some <$> f v

/-- An optional field for which `null` means absent. -/
def nullableField {α : Type} (f : Json → Except String α) (j : Json) (key : String) :
    Except String (Option α) :=
  match j.get? key with
  | none | some .null => .ok none
  | some v => some <$> f v

/-- The float nearest to an integer. -/
def intFloat (n : Int) : Float := Decimal.Scientific.toFloat (n < 0) ⟨n.natAbs, 0⟩

/-- A number: a JSON number, or one of the words for NA and the infinities. -/
def num : Json → Except String Float
  | .int n => .ok (intFloat n)
  | .num x => .ok x
  | .str "NA" | .str "nan" => .ok NA
  | .str "inf" => .ok (1 / 0)
  | .str "-inf" => .ok (-(1 / 0))
  | j => bad ("bad number " ++ j.render)

def nums (j : Json) : Except String (Array Float) := do return (← list num j).toArray

/-- A matrix from its tagged object: shape, column-major entries, optional imaginary parts
and span. -/
def matrix (j : Json) : Except String Matrix := do
  let rows ← natField j "rows"
  let cols ← natField j "cols"
  let re ← nums (← field j "re")
  let span ← optField (fun s => do
    match ← list nat s with
    | [t1, t2] => pure (Span.mk t1 t2)
    | _ => bad "bad span") j "span"
  if re.size != Word.mul rows cols then bad "matrix entries do not match its shape"
  match ← optField nums j "im" with
  | none => return ⟨rows, cols, .real re, span⟩
  | some im =>
    if im.size != re.size then bad "matrix imaginary parts do not match its shape"
    return ⟨rows, cols, .complex ((re.zip im).map fun (a, b) => ⟨a, b⟩), span⟩

/-- An element kind by its plural name. -/
def arrayKind (s : String) : Except String ArrayKind :=
  match DeclaredType.ofKeyword? s with
  | some (.array k) => .ok k
  | _ => bad s!"unknown array kind {s}"

/-- A declared type by keyword, `any` included. -/
def declaredType (j : Json) : Except String DeclaredType := do
  let s ← str j
  if s == "any" then return .any
  match DeclaredType.ofKeyword? s with
  | some t => return t
  | none => bad s!"unknown type {s}"

/-- A value from its tagged object. An array of a requested size that cannot be held ends the
request. -/
def value : Nat → Json → Except Halt Value
  | 0, _ => Halt.refuse "value nested too deeply"
  | fuel + 1, j => do
    match ← strField j "type" with
    | "null" => return .null
    | "scalar" => return .scalar (← num (← field j "value"))
    | "series" => return .series (← nums (← field j "values"))
    | "matrix" => return .matrix (← matrix j)
    | "string" => return .str (← strField j "value")
    | "list" => return .list (← list (seriesId "list id too big") (← field j "ids"))
    | "bundle" =>
      let members ← list pure (← field j "members")
      let pairs ← members.mapM fun p => match p with
        | .arr [.str k, v] => do return (k, ← value fuel v)
        | _ => Halt.refuse "bad bundle member"
      return .bundle (Members.ofPairs pairs)
    | "array" =>
      let kind ← nullableField (fun k => do arrayKind (← str k)) j "kind"
      let size ← optField nat j "size"
      let start ← match kind, size with
        | some k, some n => do
          Halt.allocate n 8
          pure (Elements.sized k n)
        | k, _ => pure ⟨k, []⟩
      let items ← match j.get? "items" with
        | none => pure []
        | some xs => do (← list pure xs).mapM (value fuel)
      let e ← items.foldlM (fun (e : Elements) v => match e.push v with
        | .ok e => .ok e
        | .error f => Halt.refuse ("array item refused: " ++ f.message)) start
      return e.toValue
    | t => Halt.refuse s!"unknown value type {t}"

/-- An expression tree in list form. A form reads the operands it takes and ignores any
after them. -/
def expr : Nat → Json → Except String Shape
  | 0, _ => bad "expression nested too deeply"
  | fuel + 1, j =>
    match j with
    | .int n => .ok (.num (intFloat n))
    | .num x => .ok (.num x)
    | .str s => .ok (.ident s)
    | .arr (.str head :: args) => do
      let sub := expr fuel
      let subs := fun (xs : List Json) => xs.mapM (expr fuel)
      match head, args with
      | "id", .str n :: _ => return .ident n
      | "num", x :: _ => return .num (← num x)
      | "str", .str s :: _ => return .str s
      | "null", _ => return .null
      | "all", _ => return .all
      | "dummy", .str d :: _ =>
        match Selector.ofName? d with
        | some s => return .selector s
        | none => bad s!"unknown dummy {d}"
      | "neg", x :: _ => return .unary .neg (← sub x)
      | "pos", x :: _ => return .unary .plus (← sub x)
      | "not", x :: _ => return .unary .not (← sub x)
      | "tr", x :: _ => return .unary .transpose (← sub x)
      | "?", c :: a :: b :: _ => return .ternary (← sub c) (← sub a) (← sub b)
      | "call", .str f :: rest => return .call f (← subs rest)
      | "matrix", rows =>
        return .matrix (← rows.mapM fun r => match r with
          | .arr es => subs es
          | _ => bad "bad matrix row")
      | "matrix_raw", es => return .matrixRaw (← subs es)
      | "row", es => return .row (← subs es)
      | "list", es => return .list (← subs es)
      | "bundle", pairs =>
        return .bundle (← pairs.mapM fun p => match p with
          | .arr (.str k :: e :: _) => do return (k, ← sub e)
          | _ => bad "bad bundle pair")
      | "bundle_raw", es => return .bundleRaw (← subs es)
      | "array", es => return .array (← subs es)
      | "idx", base :: rest => return .index (← sub base) (← subs rest)
      | ".", base :: .str key :: _ => return .member (← sub base) key
      | ":", lo :: hi :: _ => return .range (← sub lo) (← sub hi)
      | "lag", base :: k :: _ => return .lag (← sub base) (← sub k)
      | "ref", x :: _ => return .ref (← sub x)
      | "let", .str l :: e :: _ => return .bind l (← sub e)
      | "use", .str l :: _ => return .reuse l
      | "fold", .str op :: base :: e :: n :: _ =>
        match BinaryOp.ofSymbol? op with
        | some o => return .fold o (← sub base) (← sub e) (← nat n)
        | none => bad s!"unknown operator {op}"
      | op, l :: r :: _ =>
        match BinaryOp.ofSymbol? op with
        | some o => return .binary o (← sub l) (← sub r)
        | none => bad s!"unknown form {op}"
      | op, _ => bad s!"unknown form {op}"
    | _ => bad ("bad expression " ++ j.render)

/-- A statement: target, operator, value, declared type and compile flag. The value is `rhs`,
else `expr`; a compile flag that is present must be a boolean. -/
def statement (fuel : Nat) (j : Json) : Except String StatementForm := do
  let declared ← (·.getD .any) <$> optField declaredType j "type"
  let compiled ← match j.get? "compiled" with
    | none => pure none
    | some (.bool b) => pure (some b)
    | some _ => bad "compiled must be bool"
  let lhs ← optField (expr fuel) j "lhs"
  let rhs ← match j.get? "rhs" with
    | some e => some <$> expr fuel e
    | none => optField (expr fuel) j "expr"
  let op ← match ← optField str j "op" with
    | none => pure AssignOp.assign
    | some s => match AssignOp.ofSymbol? s with
      | some o => pure o
      | none => bad s!"unknown assignment operator {s}"
  return { lhs, op, rhs, declared, compiled }

end Decode

namespace StatementForm

/-- Build the statement into one forest, the target first, in reading order when either side has
a raw part; an unset compile flag takes `compiledDefault`. Only a statement that takes the
default may have neither target nor value (it evaluates to null). -/
def build (s : StatementForm) (compiledDefault : Bool) : Except String Statement := do
  if s.compiled.isSome && s.lhs.isNone && s.rhs.isNone then
    throw "statement needs lhs or expr"
  let raw := s.lhs.any Shape.hasRaw || s.rhs.any Shape.hasRaw
  let both : BuildM (Option Nat × Option Nat) := do
    let l ← s.lhs.mapM (Shape.build raw)
    let r ← s.rhs.mapM (Shape.build raw)
    return (l, r)
  let ((lhs, rhs), b) ← both.run {}
  return { forest := b.forest, lhs, op := s.op, rhs, declared := s.declared,
           compiled := s.compiled.getD compiledDefault }

end StatementForm

namespace Decode

/-- A statement of a function body, not compiled unless asked; it needs a target or a
value. -/
def bodyStatement (fuel : Nat) (j : Json) : Except String Statement := do
  let form ← statement fuel j
  { form with compiled := some (form.compiled.getD false) }.build false

/-- A parameter: name, declared type (default `any`), and whether it is passed by reference. -/
def param (j : Json) : Except String Param := do
  let name ← strField j "name"
  let declared ← (·.getD .any) <$> optField declaredType j "type"
  let byRef := ((j.get? "ref").bind Json.asBool?).getD false
  return { name, declared, byRef }

/-- A user function: name, parameters, body, and the return statement with its type. -/
def function (fuel : Nat) (j : Json) : Except String UserFunction := do
  let name ← strField j "name"
  let params ← (·.getD []) <$> optField (list param) j "params"
  let body ← (·.getD []) <$> optField (list (bodyStatement fuel)) j "body"
  let returns ← optField (fun r => do
    let t ← declaredType (← field r "type")
    match r.get? "expr", r.get? "stmt" with
    | some e, _ => return (t, ← ({ rhs := some (← expr fuel e) } : StatementForm).build false)
    | none, some s => return (t, ← bodyStatement fuel s)
    | none, none => bad "return without expr or stmt") j "returns"
  return { name, params, body := body.map fun s => { stmt := s },
           returns := returns.map fun (t, s) => (t, { stmt := s }) }

/-- The arrangement of observations: a frequency is a 32-bit word and a start year a signed
32-bit number, each the low bits of what the request gives. -/
def dataShape (j : Json) : Except String DataShape := do
  match ← strField j "kind" with
  | "cross" => return .cross
  | "time" => return .time ((← natField j "pd") % Nat.pow 2 32) (Word.truncSigned32 (← int (← field j "start")))
  | "panel" => return .panel (← natField j "units") (← natField j "periods")
  | k => bad s!"unknown structure {k}"

end Decode

end SeriesCalc
