import SeriesCalc.Expr.Op
import SeriesCalc.Decimal.Layout

/-!
# Syntax forests

The trees of one statement (its target and its right-hand side) live in one `Forest`: nodes
are numbered in the order they were added, a node's children always come before it, lists of
children are runs in a shared child table, and names and string literals are interned.

* `Forest.display`: the surface text of the subtree at a position (`(1 + x)`, `f(a, b)`,
  `M[1,2]`); `?` for the invalid position.
* `Node.debugText`: the constructor listing of one node, as the `tree` report shows it.
-/

namespace SeriesCalc

/-- A run of positions in the child table. -/
structure Children where
  start : Nat
  len : Nat
deriving DecidableEq, BEq, Repr, Inhabited

/-- One node of a syntax tree. Positions refer to other nodes; `Nat` names are interned. -/
inductive Node where
  | num (x : Float)
  | str (s : Nat)
  | null
  | ident (name : Nat)
  | selector (d : Selector)
  /-- An empty subscript slot, as in `M[,2]`. -/
  | all
  | unary (op : UnaryOp) (x : Nat)
  | binary (op : BinaryOp) (l r : Nat)
  | ternary (c a b : Nat)
  | call (func : Nat) (args : Children)
  /-- `{row; row}`; the children are matrix rows. -/
  | matrixLit (rows : Children)
  | matrixRow (elems : Children)
  | listLit (elems : Children)
  /-- Alternating key (`str`) and value nodes. -/
  | bundleLit (pairs : Children)
  | arrayLit (elems : Children)
  | index (base : Nat) (args : Children)
  | member (base : Nat) (key : Nat)
  | range (lo hi : Nat)
  | lag (base k : Nat)
  /-- `&x`: a pointer argument. -/
  | ref (x : Nat)
deriving Inhabited

/-- The trees of one statement. -/
structure Forest where
  nodes : Array Node := #[]
  children : Array Nat := #[]
  names : Array String := #[]
deriving Inhabited

/-- The position that names no node. -/
def invalidPos : Nat := 4294967295

/-- Debug text of a position: `NodeId(3)`, or `NodeId::INVALID`. -/
def posText (id : Nat) : String :=
  if id == invalidPos then "NodeId::INVALID" else s!"NodeId({id})"

/-- Debug text of a run of children. -/
def Children.debugText (c : Children) : String :=
  "NodeRange \x7b start: " ++ toString c.start ++ ", len: " ++ toString c.len ++ " \x7d"

/-- Debug text of an interned name. -/
def nameText (i : Nat) : String := s!"StrId({i})"

namespace Node

/-- The constructor listing of a node. -/
def debugText : Node → String
  | .num x => "Num(" ++ Decimal.Float.general x ++ ")"
  | .str s => "Str(" ++ nameText s ++ ")"
  | .null => "Null"
  | .ident s => "Ident(" ++ nameText s ++ ")"
  | .selector d => "Dummy(" ++ d.debugName ++ ")"
  | .all => "All"
  | .unary op x => "Unary(" ++ op.debugName ++ ", " ++ posText x ++ ")"
  | .binary op l r => "Binary(" ++ op.debugName ++ ", " ++ posText l ++ ", " ++ posText r ++ ")"
  | .ternary c a b =>
    "Ternary \x7b cond: " ++ posText c ++ ", then_branch: " ++ posText a ++ ", else_branch: " ++
      posText b ++ " \x7d"
  | .call f args => "Call \x7b func: " ++ nameText f ++ ", args: " ++ args.debugText ++ " \x7d"
  | .matrixLit c => "MatrixLit(" ++ c.debugText ++ ")"
  | .matrixRow c => "MatrixRow(" ++ c.debugText ++ ")"
  | .listLit c => "ListLit(" ++ c.debugText ++ ")"
  | .bundleLit c => "BundleLit(" ++ c.debugText ++ ")"
  | .arrayLit c => "ArrayLit(" ++ c.debugText ++ ")"
  | .index b args => "Index \x7b base: " ++ posText b ++ ", args: " ++ args.debugText ++ " \x7d"
  | .member b k => "Member \x7b base: " ++ posText b ++ ", key: " ++ nameText k ++ " \x7d"
  | .range lo hi => "Range(" ++ posText lo ++ ", " ++ posText hi ++ ")"
  | .lag b k => "Lag \x7b base: " ++ posText b ++ ", lag: " ++ posText k ++ " \x7d"
  | .ref x => "Ref(" ++ posText x ++ ")"

end Node

namespace Forest

def size (f : Forest) : Nat := f.nodes.size

/-- A count as a 32-bit position: the top value is the invalid position, so every count from
there on is held one below it. -/
def pos32 (n : Nat) : Nat := min n (invalidPos - 1)

/-- Add a node; its position is the number of nodes before it, as a 32-bit position. -/
def push (f : Forest) (n : Node) : Forest × Nat :=
  let id := pos32 f.nodes.size
  ({ f with nodes := f.nodes.push n }, id)

/-- Store a list of children. An empty list is the run `0, 0`; a run starts at a 32-bit
position and is at most 65535 long, so a longer list keeps only its first 65535 children. -/
def pushList (f : Forest) (ids : List Nat) : Forest × Children :=
  if ids.isEmpty then (f, ⟨0, 0⟩)
  else
    let run : Children := ⟨pos32 f.children.size, min ids.length 65535⟩
    ({ f with children := f.children ++ ids.toArray }, run)

/-- The number of a name, adding it when new. -/
def intern (f : Forest) (s : String) : Forest × Nat :=
  match f.names.findIdx? (· == s) with
  | some i => (f, i)
  | none =>
    let id := f.names.size
    ({ f with names := f.names.push s }, id)

/-- The positions of a run of children. -/
def list (f : Forest) (c : Children) : List Nat :=
  if c.len == 0 then [] else (f.children.extract c.start (c.start + c.len)).toList

def name (f : Forest) (i : Nat) : String := f.names.getD i ""

def node? (f : Forest) (id : Nat) : Option Node := f.nodes[id]?

/-- Consecutive pairs of a list; a last odd element forms a pair of its own. -/
def chunksOfTwo : List Nat → List (List Nat)
  | a :: b :: rest => [a, b] :: chunksOfTwo rest
  | [a] => [[a]]
  | [] => []

/-- The surface text of the subtree at `id`, appended to `out`. A child at or after its
parent's position (only a malformed forest has one) is written `?`. -/
def write (f : Forest) (id : Nat) (out : String) : String :=
  match f.node? id with
  | none => out ++ "?"
  | some n =>
    let sub := fun (c : Nat) (out : String) => if c < id then f.write c out else out ++ "?"
    let subs := fun (cs : Children) (sep : String) (out : String) =>
      ((f.list cs).foldl (fun (acc : String × Bool) c =>
        (sub c (if acc.2 then acc.1 else acc.1 ++ sep), false)) (out, true)).1
    match n with
    | .num x => out ++ Decimal.Float.positional x
    | .str s => out ++ "\"" ++ f.name s ++ "\""
    | .null => out ++ "null"
    | .ident s => out ++ f.name s
    | .selector d => out ++ d.name
    | .all => out
    | .unary .transpose x => sub x out ++ "'"
    | .unary op x => sub x (out ++ op.symbol)
    | .binary op l r => sub r (sub l (out ++ "(") ++ " " ++ op.symbol ++ " ") ++ ")"
    | .ternary c a b => sub b (sub a (sub c (out ++ "(") ++ " ? ") ++ " : ") ++ ")"
    | .call fn args => subs args ", " (out ++ f.name fn ++ "(") ++ ")"
    | .matrixLit rows => subs rows "; " (out ++ "\x7b") ++ "\x7d"
    | .matrixRow es => subs es ", " out
    | .listLit es => subs es ", " out
    | .bundleLit ps =>
      let pair := fun (chunk : List Nat) (out : String) => match chunk with
        | [k, v] =>
          let key := match f.node? k with
            | some (.str s) => f.name s ++ "="
            | _ => ""
          sub v (out ++ key)
        | _ => out
      let body := ((chunksOfTwo (f.list ps)).foldl (fun (acc : String × Bool) chunk =>
        (pair chunk (if acc.2 then acc.1 else acc.1 ++ ", "), false)) (out ++ "_(", true)).1
      body ++ ")"
    | .arrayLit es => subs es ", " (out ++ "defarray(") ++ ")"
    | .index b args => subs args "," (sub b out ++ "[") ++ "]"
    | .member b k => sub b out ++ "." ++ f.name k
    | .range lo hi => sub hi (sub lo out ++ ":")
    | .lag b k => sub k (sub b out ++ "(") ++ ")"
    | .ref x => sub x (out ++ "&")
termination_by id
decreasing_by all_goals assumption

/-- Surface text of the subtree at `id`. -/
def display (f : Forest) (id : Nat) : String := f.write id ""

end Forest

end SeriesCalc
