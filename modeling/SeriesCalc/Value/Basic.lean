import SeriesCalc.Value.Matrix
import SeriesCalc.Value.Error
import SeriesCalc.Value.Categories

/-!
# Values

A value is null, a scalar, a series (one number per observation), a matrix, a string, a list
of series ids, a bundle (named members in insertion order) or an array (elements of one
kind). NA is a NaN.

* Bundles: `Members.insert` keeps an existing key's position and replaces its value; a new
  key goes last. `Members.union` keeps the left side's members and adds the right side's new
  keys, in order.
* Arrays: the first element fixes the kind of an untyped array; an element of another kind,
  or a value that cannot be an element, is refused (`Elements.push`, `Elements.set`).
* `Value.same` is value equality: scalars and series compare as floats (a NaN equals
  nothing), matrices by `Matrix.same`, bundles as maps (order does not matter), arrays by
  kind and elements in order.
-/

namespace SeriesCalc

/-- A value of the workspace. -/
inductive Value where
  | null
  | scalar (x : Float)
  | series (xs : Array Float)
  | matrix (m : Matrix)
  | str (s : String)
  | list (ids : List Nat)
  | bundle (members : List (String × Value))
  | array (kind : Option ArrayKind) (items : List Value)
deriving Inhabited

/-- The NA marker. -/
def NA : Float := 0 / 0

/-- Named members of a bundle, in insertion order. -/
abbrev Members := List (String × Value)

/-- The elements of an array and their kind (`none` until the first element fixes it). -/
structure Elements where
  kind : Option ArrayKind := none
  items : List Value := []
deriving Inhabited

namespace Value

def kind : Value → ValueKind
  | .null => .null
  | .scalar _ => .scalar
  | .series _ => .series
  | .matrix _ => .matrix
  | .str _ => .str
  | .list _ => .list
  | .bundle _ => .bundle
  | .array .. => .array

def isNull : Value → Bool
  | .null => true
  | _ => false

/-- Scalar content: a scalar, or the entry of a real `1 × 1` matrix. -/
def scalar? : Value → Option Float
  | .scalar x => some x
  | .matrix m => if m.isScalar then (m.real?.map fun xs => xs.getD 0 0) else none
  | _ => none

/-- The element kind this value would have in an array. -/
def arrayKind? (v : Value) : Option ArrayKind := v.kind.arrayKind?

def str? : Value → Option String
  | .str s => some s
  | _ => none

end Value

/-- The empty element of an element kind. -/
def ArrayKind.emptyElement : ArrayKind → Value
  | .strings => .str ""
  | .matrices => .matrix .empty
  | .bundles => .bundle []
  | .lists => .list []
  | .arrays => .array none []

namespace Members

/-- The value of a member. -/
def get? (ms : Members) (key : String) : Option Value :=
  (ms.find? (·.1 == key)).map (·.2)

def contains (ms : Members) (key : String) : Bool := ms.any (·.1 == key)

/-- Set a member: in place when the key exists, else at the end. Also returns the old value. -/
def insert (ms : Members) (key : String) (v : Value) : Members × Option Value :=
  if ms.contains key then
    (ms.map fun (k, w) => if k == key then (k, v) else (k, w), ms.get? key)
  else (ms ++ [(key, v)], none)

/-- Remove a member; the later ones move up. Also returns the removed value. -/
def remove (ms : Members) (key : String) : Members × Option Value :=
  (ms.filter (·.1 != key), ms.get? key)

/-- The members of `a`, then those of `b` whose keys `a` lacks. -/
def union (a b : Members) : Members :=
  b.foldl (fun acc (k, v) => if acc.contains k then acc else acc ++ [(k, v)]) a

/-- Members from a list of pairs: a repeated key keeps its first position and its last value. -/
def ofPairs (ps : List (String × Value)) : Members :=
  ps.foldl (fun acc (k, v) => (acc.insert k v).1) []

def keys (ms : Members) : List String := ms.map (·.1)

end Members

namespace SeriesIds

/-- `a` followed by the ids of `b` it lacks. -/
def union (a b : List Nat) : List Nat :=
  b.foldl (fun acc i => if acc.contains i then acc else acc ++ [i]) a

/-- The ids of `a` that `b` holds, in `a`'s order. -/
def intersect (a b : List Nat) : List Nat := a.filter b.contains

/-- The ids of `a` that `b` lacks, in `a`'s order. -/
def difference (a b : List Nat) : List Nat := a.filter (!b.contains ·)

/-- Replace the id at a position; `none` when the position is past the end. -/
def set? (a : List Nat) (pos : Nat) (id : Nat) : Option (List Nat) :=
  if pos < a.length then some (a.set pos id) else none

end SeriesIds

namespace Elements

def ofValue? : Value → Option Elements
  | .array k xs => some ⟨k, xs⟩
  | _ => none

def toValue (e : Elements) : Value := .array e.kind e.items

/-- An array of `n` empty elements of one kind. -/
def sized (k : ArrayKind) (n : Nat) : Elements := ⟨some k, List.replicate n k.emptyElement⟩

/-- Admit `v` as an element: it must be able to be one, and of the array's kind; an untyped
array takes `v`'s kind. -/
def check (e : Elements) (v : Value) : Except Fault Elements :=
  match v.arrayKind?, e.kind with
  | none, _ => .error (.arrayKindMismatch e.kind v.kind)
  | some k, some j => if k == j then .ok e else .error (.arrayKindMismatch e.kind v.kind)
  | some k, none => .ok { e with kind := some k }

/-- Append one element. -/
def push (e : Elements) (v : Value) : Except Fault Elements := do
  let e ← e.check v
  return { e with items := e.items ++ [v] }

/-- Replace the element at a 0-based position; the position is checked first, and a refused
one is reported 1-based as a signed 64-bit number. -/
def set (e : Elements) (pos : Nat) (v : Value) : Except Fault Elements := do
  if pos ≥ e.items.length then throw (.indexOutOfBounds (Word.wrapSigned (Word.signed pos + 1)) e.items.length)
  let e ← e.check v
  return { e with items := e.items.set pos v }

/-- Append every element of `other`; the kinds must agree when both are known. -/
def extend (e other : Elements) : Except Fault Elements :=
  match e.kind, other.kind with
  | some a, some b =>
    if a == b then .ok { e with items := e.items ++ other.items }
    else .error (.arrayKindMismatch e.kind b.elementKind)
  | none, k => .ok ⟨k, e.items ++ other.items⟩
  | some _, none => .ok { e with items := e.items ++ other.items }

/-- Elements `lo..hi` (0-based, inclusive). -/
def slice (e : Elements) (lo hi : Nat) : Elements :=
  { e with items := (e.items.drop lo).take (hi + 1 - lo) }

end Elements

/-- Scalar text: `NA` for a NaN, otherwise positional digits. -/
def scalarText (x : Float) : String :=
  if x.isNaN then "NA" else Decimal.Float.positional x

namespace Value

/-- How a value shows itself in a report. -/
def display : Value → String
  | .null => "null"
  | .scalar x => scalarText x
  | .series xs => s!"series({xs.size} obs)"
  | .matrix m => m.display
  | .str s => s
  | .list ids => "list(" ++ " ".intercalate (ids.map toString) ++ ")"
  | .bundle ms => "bundle(" ++ ", ".intercalate (ms.map fun (k, v) => k ++ ": " ++ v.kind.name) ++ ")"
  | .array (some k) xs => s!"array of {k.name} ({xs.length})"
  | .array none xs => s!"array ({xs.length})"

/-- Where showing the value runs past stored entries: only a matrix whose shape overflows a
word has such a point. -/
def displayOverrun : Value → Option Overrun
  | .matrix m => m.rowwiseOverrun
  | _ => none

/-- Float arrays equal entry by entry, NaN equal to nothing. -/
def floatsSame (xs ys : Array Float) : Bool :=
  xs.size == ys.size && (xs.zip ys).all fun (x, y) => x == y

mutual

/-- Value equality (see the module note). -/
def same : Value → Value → Bool
  | .null, .null => true
  | .scalar x, .scalar y => x == y
  | .series xs, .series ys => floatsSame xs ys
  | .matrix a, .matrix b => a.same b
  | .str a, .str b => a == b
  | .list a, .list b => a == b
  | .bundle a, .bundle b => a.length == b.length && membersWithin a b
  | .array k xs, .array l ys => k == l && itemsSame xs ys
  | _, _ => false

/-- Every member of the first list has an equal member of the same key in `other`. -/
def membersWithin : List (String × Value) → List (String × Value) → Bool
  | [], _ => true
  | (k, v) :: rest, other =>
    (match other.find? (·.1 == k) with
      | some (_, w) => same v w
      | none => false) && membersWithin rest other

/-- Equal elements in order. -/
def itemsSame : List Value → List Value → Bool
  | [], [] => true
  | x :: xs, y :: ys => same x y && itemsSame xs ys
  | _, _ => false

end

end Value

/-- A value as an operator sees it. A series read from the dataset keeps its id and its
category table. -/
structure Operand where
  value : Value
  origin : Option Nat := none
  categories : Option Categories := none
deriving Inhabited

namespace Operand

def kind (o : Operand) : ValueKind := o.value.kind

def scalar? (o : Operand) : Option Float := o.value.scalar?

def isScalarLike (o : Operand) : Bool := o.scalar?.isSome

end Operand

instance : Coe Value Operand := ⟨fun v => { value := v }⟩

end SeriesCalc
