import SeriesCalc.Eval.Scratch

/-!
# Operators on strings, lists, bundles and arrays

* Strings: `+` and `~` concatenate, `==`/`!=` compare; `s + n` drops the first `n`
  characters. A string compared with a series gives a 0/1 series: against the series'
  category labels when it has them (NA where the series is NA), otherwise against the
  observation labels.
* Lists: set algebra on series ids: `+` and `~` append, `|` is the union, `-` the
  difference, and the intersection keeps the left order; a dataset series stands for the
  list of its id.
* Bundles: `+` is the union, the left side winning.
* Arrays: `+` appends an element or the elements of another array (an array of arrays
  appends the other array as one element); `|` and the intersection work on string arrays
  and drop duplicates.
-/

namespace SeriesCalc

namespace Collections

def mismatch (op : BinaryOp) (a b : Operand) : Fault := .binaryTypeMismatch op.symbol a.kind b.kind

/-- `series == label` (or `!=`) over the sample. -/
def compareWithSeries (env : OpEnv) (negate : Bool) (s : String) (o : Operand) (xs : Array Float) :
    Array Float :=
  match o.categories with
  | some table =>
    let code := table.codeOf? s
    fillSeriesPure env.ds fun t =>
      let v := xs.getD t NA
      if v.isNaN then NA
      else ofBool ((match code with | some c => c == v | none => false) != negate)
  | none => fillSeriesPure env.ds fun t => ofBool ((env.ds.obsLabel t == s) != negate)

/-- Operators with a string side. -/
def strings (env : OpEnv) (op : BinaryOp) (a b : Operand) : OpM Unit :=
  match a.value, b.value, op with
  | .str x, .str y, .add | .str x, .str y, .concat => OpM.put (.str (x ++ y))
  | .str x, .str y, .eq => OpM.put (.scalar (ofBool (x == y)))
  | .str x, .str y, .notEq => OpM.put (.scalar (ofBool (x != y)))
  | .str _, .str _, _ => OpM.fail (mismatch op a b)
  | .str s, .scalar n, .add =>
    if n.isNaN || n < 0 then OpM.fail (.domain "string offset must be non-negative")
    else OpM.put (.str (String.ofList (s.toList.drop n.toCount)))
  | .str s, .series xs, .eq => OpM.put (.series (compareWithSeries env false s b xs))
  | .str s, .series xs, .notEq => OpM.put (.series (compareWithSeries env true s b xs))
  | .series xs, .str s, .eq => OpM.put (.series (compareWithSeries env false s a xs))
  | .series xs, .str s, .notEq => OpM.put (.series (compareWithSeries env true s a xs))
  | _, _, _ => OpM.fail (mismatch op a b)

/-- A list-like operand as series ids: a list, or a dataset series. -/
def asIds? (o : Operand) : Option (List Nat) :=
  match o.value, o.origin with
  | .list ids, _ => some ids
  | .series _, some id => some [id]
  | _, _ => none

/-- Operators with a list side. -/
def lists (op : BinaryOp) (a b : Operand) : OpM Unit :=
  match asIds? a, asIds? b with
  | some x, some y =>
    match op with
    | .intersect => OpM.put (.list (SeriesIds.intersect x y))
    | .union => OpM.put (.list (SeriesIds.union x y))
    | .sub => OpM.put (.list (SeriesIds.difference x y))
    | .add | .concat => OpM.put (.list (x ++ y))
    | _ => OpM.fail (mismatch op a b)
  | _, _ => OpM.fail (mismatch op a b)

/-- Operators with a bundle side. -/
def bundles (op : BinaryOp) (a b : Operand) : OpM Unit :=
  match a.value, b.value, op with
  | .bundle x, .bundle y, .add => OpM.put (.bundle (Members.union x y))
  | _, _, _ => OpM.fail (mismatch op a b)

/-- Union or intersection of two string arrays, duplicates dropped. -/
def stringSet (op : BinaryOp) (x y : Elements) : Except Fault Elements :=
  if [x, y].any (fun e => e.kind.isSome && e.kind != some .strings) then
    .error (.arrayKindMismatch (some .strings) .array)
  else
    let contains := fun (items : List Value) (s : String) => items.any (·.str? == some s)
    let candidates := match op with
      | .union => x.items ++ y.items
      | _ => x.items.filter fun v => match v.str? with | some s => contains y.items s | none => false
    .ok ⟨some .strings, candidates.foldl (fun acc v =>
      match v.str? with
      | some s => if contains acc s then acc else acc ++ [.str s]
      | none => acc) []⟩

/-- Operators with an array on the left. -/
def arrays (op : BinaryOp) (a b : Operand) : OpM Unit := do
  match Elements.ofValue? a.value with
  | none => OpM.fail (mismatch op a b)
  | some x =>
    let lift := fun (r : Except Fault Elements) => match r with
      | .ok e => OpM.put e.toValue
      | .error f => OpM.fail f
    match op, Elements.ofValue? b.value with
    | .add, some y =>
      if x.kind != some .arrays then lift (x.extend y) else lift (x.push b.value)
    | .add, none =>
      if b.value.arrayKind?.isNone then OpM.fail (.arrayKindMismatch x.kind b.kind)
      else lift (x.push b.value)
    | .union, some y | .intersect, some y => lift (stringSet op x y)
    | _, _ => OpM.fail (mismatch op a b)

end Collections

end SeriesCalc
