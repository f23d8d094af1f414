import SeriesCalc.Expr.Tree

/-!
# Building syntax forests

A `Shape` describes an expression; `Shape.build` adds its nodes to a forest bottom-up, in the
order a recursive-descent parser produces them: operands before their operator, the elements
of a matrix row by row before the rows, the values of a bundle before its keys, a function's
arguments before the call.

A statement with a raw part (`matrixRaw`, `bundleRaw` or a bare `row`) is laid out node by node
in reading order instead (`raw := true`): each matrix row right after its elements, each
bundle key before its value, a function's name before its arguments.

Two shapes only steer the building: `bind l e` builds `e` and remembers its position under
`l`, and `reuse l` stands for that position again, so one node gets two parents. `fold op b e n`
is the left fold `((b op e) op e) ...` with `n` fresh copies of `e`.
-/

namespace SeriesCalc

/-- The description of an expression tree. -/
inductive Shape where
  | num (x : Float)
  | ident (name : String)
  | str (s : String)
  | null
  | all
  | selector (d : Selector)
  | unary (op : UnaryOp) (x : Shape)
  | binary (op : BinaryOp) (l r : Shape)
  | ternary (c a b : Shape)
  | call (func : String) (args : List Shape)
  | matrix (rows : List (List Shape))
  /-- A matrix literal whose children are any nodes, rows or not. -/
  | matrixRaw (elems : List Shape)
  | row (elems : List Shape)
  | list (elems : List Shape)
  | bundle (pairs : List (String × Shape))
  /-- A bundle literal with any children, keys or not. -/
  | bundleRaw (elems : List Shape)
  | array (elems : List Shape)
  | index (base : Shape) (args : List Shape)
  | member (base : Shape) (key : String)
  | range (lo hi : Shape)
  | lag (base k : Shape)
  | ref (x : Shape)
  | bind (label : String) (e : Shape)
  | reuse (label : String)
  | fold (op : BinaryOp) (base e : Shape) (n : Nat)
deriving Inhabited

/-- A forest under construction, with the labelled positions. -/
structure Builder where
  forest : Forest := {}
  labels : List (String × Nat) := []

/-- Building fails only on a label used before it is bound. -/
abbrev BuildM := StateT Builder (Except String)

namespace Builder

def push (n : Node) : BuildM Nat :=
  modifyGet fun ⟨forest, labels⟩ => let (f, id) := forest.push n; (id, ⟨f, labels⟩)

def pushList (ids : List Nat) : BuildM Children :=
  modifyGet fun ⟨forest, labels⟩ => let (f, c) := forest.pushList ids; (c, ⟨f, labels⟩)

def intern (s : String) : BuildM Nat :=
  modifyGet fun ⟨forest, labels⟩ => let (f, i) := forest.intern s; (i, ⟨f, labels⟩)

/-- A node with children: the run of `ids` first, then the node `mk` makes of it. Calls,
literals, matrix rows and subscripts are all built this way. -/
def withChildren (ids : List Nat) (mk : Children → Node) : BuildM Nat := do
  let c ← pushList ids
  push (mk c)

/-- Add a row node for each list of built elements; the result is the row positions. -/
def pushRows : List (List Nat) → BuildM (List Nat)
  | [] => return []
  | r :: rest => do
    let row ← withChildren r .matrixRow
    let more ← pushRows rest
    return row :: more

/-- Add a key node for each built value, in order; the result is the positions of keys and
values, alternating. -/
def pushKeys : List String → List Nat → BuildM (List Nat)
  | k :: ks, v :: vs => do
    let key ← intern k
    let keyId ← push (.str key)
    let more ← pushKeys ks vs
    return keyId :: v :: more
  | _, _ => return []

end Builder

namespace Shape

mutual

/-- Whether a shape has a raw part. -/
def hasRaw : Shape → Bool
  | .matrixRaw _ | .bundleRaw _ | .row _ => true
  | .num _ | .ident _ | .str _ | .null | .all | .selector _ | .reuse _ => false
  | .unary _ x | .ref x | .bind _ x | .member x _ => hasRaw x
  | .binary _ l r | .range l r | .lag l r => hasRaw l || hasRaw r
  | .fold _ b e _ => hasRaw b || hasRaw e
  | .ternary c a b => hasRaw c || hasRaw a || hasRaw b
  | .call _ args | .list args | .array args => anyRaw args
  | .index b args => hasRaw b || anyRaw args
  | .matrix rows => anyRawRows rows
  | .bundle ps => anyRawPairs ps

def anyRaw : List Shape → Bool
  | [] => false
  | s :: rest => hasRaw s || anyRaw rest

def anyRawRows : List (List Shape) → Bool
  | [] => false
  | r :: rest => anyRaw r || anyRawRows rest

def anyRawPairs : List (String × Shape) → Bool
  | [] => false
  | (_, s) :: rest => hasRaw s || anyRawPairs rest

end

mutual

/-- Add the nodes of a shape, in reading order when `raw`; the result is the position of its
root. -/
def build (raw : Bool) : Shape → BuildM Nat
  | .num x => Builder.push (.num x)
  | .ident s => do let i ← Builder.intern s; Builder.push (.ident i)
  | .str s => do let i ← Builder.intern s; Builder.push (.str i)
  | .null => Builder.push .null
  | .all => Builder.push .all
  | .selector d => Builder.push (.selector d)
  | .unary op x => do let a ← build raw x; Builder.push (.unary op a)
  | .binary op l r => do
    let a ← build raw l
    let b ← build raw r
    Builder.push (.binary op a b)
  | .ternary c a b => do
    let c ← build raw c
    let a ← build raw a
    let b ← build raw b
    Builder.push (.ternary c a b)
  | .call f args => do
    let (i, ids) ← if raw then do
        let i ← Builder.intern f
        pure (i, ← buildAll raw args)
      else do
        let ids ← buildAll raw args
        pure (← Builder.intern f, ids)
    Builder.withChildren ids (.call i)
  | .matrix rows => do
    let rowIds ← if raw then buildRowsInPlace rows else Builder.pushRows (← buildRows raw rows)
    Builder.withChildren rowIds .matrixLit
  | .matrixRaw es => do
    let ids ← buildAll raw es
    Builder.withChildren ids .matrixLit
  | .row es => do
    let ids ← buildAll raw es
    Builder.withChildren ids .matrixRow
  | .list es => do
    let ids ← buildAll raw es
    Builder.withChildren ids .listLit
  | .bundle ps => do
    let ids ← if raw then buildPairsInPlace ps
      else Builder.pushKeys (ps.map (·.1)) (← buildPairs raw ps)
    Builder.withChildren ids .bundleLit
  | .bundleRaw es => do
    let ids ← buildAll raw es
    Builder.withChildren ids .bundleLit
  | .array es => do
    let ids ← buildAll raw es
    Builder.withChildren ids .arrayLit
  | .index b args => do
    let base ← build raw b
    let ids ← buildAll raw args
    Builder.withChildren ids (.index base)
  | .member b k => do
    let base ← build raw b
    let key ← Builder.intern k
    Builder.push (.member base key)
  | .range lo hi => do
    let a ← build raw lo
    let b ← build raw hi
    Builder.push (.range a b)
  | .lag b k => do
    let a ← build raw b
    let c ← build raw k
    Builder.push (.lag a c)
  | .ref x => do let a ← build raw x; Builder.push (.ref a)
  | .bind l e => do
    let id ← build raw e
    modify fun b => { b with labels := (l, id) :: b.labels }
    return id
  | .reuse l => do
    match (← get).labels.lookup l with
    | some id => return id
    | none => throw s!"unknown label {l}"
  | .fold op base e n => do
    let mut acc ← build raw base
    for _ in List.range n do
      let next ← build raw e
      acc ← Builder.push (.binary op acc next)
    return acc

/-- Build shapes left to right. -/
def buildAll (raw : Bool) : List Shape → BuildM (List Nat)
  | [] => return []
  | s :: rest => do
    let id ← build raw s
    let ids ← buildAll raw rest
    return id :: ids

/-- Build the rows of a matrix, row by row. -/
def buildRows (raw : Bool) : List (List Shape) → BuildM (List (List Nat))
  | [] => return []
  | r :: rest => do
    let ids ← buildAll raw r
    let more ← buildRows raw rest
    return ids :: more

/-- Build the values of bundle pairs, left to right. -/
def buildPairs (raw : Bool) : List (String × Shape) → BuildM (List Nat)
  | [] => return []
  | (_, s) :: rest => do
    let id ← build raw s
    let ids ← buildPairs raw rest
    return id :: ids

/-- Build the rows of a matrix in reading order, each row node right after its elements; the
result is the positions of the row nodes. -/
def buildRowsInPlace : List (List Shape) → BuildM (List Nat)
  | [] => return []
  | r :: rest => do
    let ids ← buildAll true r
    let row ← Builder.withChildren ids .matrixRow
    let more ← buildRowsInPlace rest
    return row :: more

/-- Build bundle pairs in reading order, each key before its value; the result is the
positions of keys and values, alternating. -/
def buildPairsInPlace : List (String × Shape) → BuildM (List Nat)
  | [] => return []
  | (k, s) :: rest => do
    let key ← Builder.intern k
    let keyId ← Builder.push (.str key)
    let id ← build true s
    let ids ← buildPairsInPlace rest
    return keyId :: id :: ids

end

end Shape

end SeriesCalc
