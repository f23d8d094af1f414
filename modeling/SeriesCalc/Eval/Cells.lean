import SeriesCalc.Value.Basic

/-!
# The cell store of a statement

Evaluating a statement gives each tree position a cell holding its value. A compiled
statement keeps its cells from one run to the next, so later runs write into the cells of
earlier ones; a one-shot statement drops them after each run.

A position links to its own cell (`Link.own`), to another position's cell (`Link.shared`: a
short-circuited `&&`/`||` or a chosen branch of a conditional), or to nothing. A cell counts
its links in `refs` and is freed when the count reaches zero. A cell either owns its value or
stands for storage elsewhere (`Payload.alias`): a dataset series, a variable, or a member of
a variable reached through a path of keys and element positions.

The counters are part of the statement's report: cells allocated, writes into a cell that
kept its kind (`reused`) or changed it (`retagged`), and cells discarded.
-/

namespace SeriesCalc

/-- One step from a container into its contents. -/
inductive Accessor where
  | key (k : String)
  | elem (i : Nat)
deriving DecidableEq, BEq, Inhabited, Repr

/-- Storage a cell stands for. -/
inductive Handle where
  | series (id : Nat)
  | var (id : Nat)
  | member (root : Nat) (path : List Accessor)
deriving DecidableEq, BEq, Inhabited, Repr

/-- The content of a cell. -/
inductive Payload where
  | owned (v : Value)
  | alias (h : Handle)
deriving Inhabited

/-- Why a cell exists. -/
inductive Role where
  /-- An operator's result. -/
  | result
  /-- A literal or a variable of the tree itself. -/
  | leaf
  /-- A live member or element of a stored container. -/
  | part
deriving DecidableEq, BEq, Inhabited

/-- A cell: its content, role, number of links, the kind of the value last written into it,
and for an alias the kind of the storage when it was bound. -/
structure Cell where
  payload : Payload
  role : Role
  refs : Nat := 1
  lastKind : ValueKind := .null
  boundKind : ValueKind := .null
deriving Inhabited

/-- How a position reaches its cell. -/
inductive Link where
  | vacant
  | own (id : Nat)
  | shared (id : Nat)
deriving DecidableEq, BEq, Inhabited

/-- Allocation counters. -/
structure Counters where
  allocated : Nat := 0
  reused : Nat := 0
  retagged : Nat := 0
  discarded : Nat := 0
deriving DecidableEq, BEq, Inhabited, Repr

/-- What the cells were built against: if any of these changes, remembered series and slot
positions may be stale, and the cells are dropped. -/
structure Stamp where
  nobs : Nat
  datasetEpoch : Nat
  varsEpoch : Nat
deriving DecidableEq, BEq, Inhabited

/-- The cells of one statement. -/
structure CellStore where
  cells : Array (Option Cell) := #[]
  free : List Nat := []
  links : Array Link := #[]
  starting : Bool := true
  stamp : Option Stamp := none
  counters : Counters := {}
deriving Inhabited

namespace CellStore

def cell? (s : CellStore) (id : Nat) : Option Cell := (s.cells[id]?).bind fun c => c

def link (s : CellStore) (pos : Nat) : Link := s.links.getD pos .vacant

def setLink (s : CellStore) (pos : Nat) (l : Link) : CellStore :=
  let links := if pos < s.links.size then s.links else s.links ++ Array.replicate (pos + 1 - s.links.size) .vacant
  { s with links := links.set! pos l }

def modifyCell (s : CellStore) (id : Nat) (f : Cell → Cell) : CellStore :=
  match s.cell? id with
  | some c => { s with cells := s.cells.set! id (some (f c)) }
  | none => s

/-- Number of cells in use. -/
def live (s : CellStore) : Nat := (s.cells.filter Option.isSome).size

/-- A new cell with one link; a freed number is used again, the last freed first. -/
def alloc (s : CellStore) (p : Payload) (r : Role) : CellStore × Nat :=
  let s := { s with counters.allocated := s.counters.allocated + 1 }
  let c : Cell := { payload := p, role := r }
  match s.free with
  | id :: rest => ({ s with cells := s.cells.set! id (some c), free := rest }, id)
  | [] =>
    let id := s.cells.size
    ({ s with cells := s.cells.push (some c) }, id)

/-- Drop one link to a cell, freeing it with the last one. -/
def release (s : CellStore) (id : Nat) : CellStore :=
  match s.cell? id with
  | none => s
  | some c =>
    if c.refs - 1 == 0 then
      { s with cells := s.cells.set! id none, free := id :: s.free,
               counters.discarded := s.counters.discarded + 1 }
    else { s with cells := s.cells.set! id (some { c with refs := c.refs - 1 }) }

/-- Release whatever a position links to. -/
def unlink (s : CellStore) (pos : Nat) : CellStore :=
  let s := match s.link pos with
    | .own id | .shared id => s.release id
    | .vacant => s
  s.setLink pos .vacant

/-- A cell for a position to write its own result into: its own cell, turned into an owned
result cell if it was an alias; a fresh one when the position shares another's cell or has
none. -/
def writable (s : CellStore) (pos : Nat) : CellStore × Nat :=
  let fresh := fun (s : CellStore) =>
    let (s, id) := s.alloc (.owned .null) .result
    (s.setLink pos (.own id), id)
  match s.link pos with
  | .own id =>
    match s.cell? id with
    | some c =>
      match c.payload with
      | .alias _ =>
        (s.modifyCell id fun c => { c with payload := .owned .null, role := .result,
                                            lastKind := .null, boundKind := .null }, id)
      | .owned _ => (s, id)
    | none => fresh s
  | .shared old => fresh (s.release old)
  | .vacant => fresh s

/-- The cell of a literal: kept when the position already owns a literal cell, else made
afresh holding `v`. -/
def literal (s : CellStore) (pos : Nat) (v : Value) : CellStore × Nat :=
  let keep := match s.link pos with
    | .own id => match s.cell? id with
      | some { payload := .owned _, role := .leaf, .. } => some id
      | _ => none
    | _ => none
  match keep with
  | some id => (s, id)
  | none =>
    let s := s.unlink pos
    let (s, id) := s.alloc (.owned v) .leaf
    (s.setLink pos (.own id), id)

/-- Make a position's cell stand for storage of kind `k`, reusing the position's own cell. -/
def bind (s : CellStore) (pos : Nat) (h : Handle) (k : ValueKind) (r : Role) : CellStore × Nat :=
  let reuse := match s.link pos with
    | .own id => if (s.cell? id).isSome then some id else none
    | _ => none
  match reuse with
  | some id =>
    (s.modifyCell id fun c => { c with payload := .alias h, role := r, lastKind := .null,
                                        boundKind := k }, id)
  | none =>
    let s := s.unlink pos
    let (s, id) := s.alloc (.alias h) r
    let s := s.modifyCell id fun c => { c with boundKind := k }
    (s.setLink pos (.own id), id)

/-- Make a position share the cell `target`. -/
def share (s : CellStore) (pos : Nat) (target : Nat) : CellStore :=
  if s.link pos == .shared target then s
  else
    let s := s.modifyCell target fun c => { c with refs := c.refs + 1 }
    (s.unlink pos).setLink pos (.shared target)

/-- Move the value out of an owned cell for an operator to update; null otherwise. -/
def lend (s : CellStore) (id : Nat) : CellStore × Value :=
  match s.cell? id with
  | some { payload := .owned v, .. } => (s.modifyCell id fun c => { c with payload := .owned .null }, v)
  | _ => (s, .null)

/-- Put a rewritten value back and count the write: reused when the kind stayed, retagged
when it changed, nothing for the first write. -/
def restore (s : CellStore) (id : Nat) (v : Value) : CellStore :=
  match s.cell? id with
  | none => s
  | some c =>
    let prev := c.lastKind
    let s := s.modifyCell id fun c => { c with lastKind := v.kind, payload := .owned v }
    if prev == .null then s
    else if prev == v.kind then { s with counters.reused := s.counters.reused + 1 }
    else { s with counters.retagged := s.counters.retagged + 1 }

/-- Take the value of an owned cell that no other position shares, leaving null. -/
def takeOwned (s : CellStore) (id : Nat) : CellStore × Option Value :=
  match s.cell? id with
  | some c =>
    if c.refs > 1 then (s, none)
    else match c.payload with
      | .owned v => (s.modifyCell id fun c => { c with payload := .owned .null, lastKind := .null }, some v)
      | .alias _ => (s, none)
  | none => (s, none)

/-- Drop every cell and link; the counters stay and count the live cells as discarded. -/
def clear (s : CellStore) : CellStore :=
  { counters := { s.counters with discarded := s.counters.discarded + s.live } }

/-- Drop the cells if they were built against another stamp. -/
def validate (s : CellStore) (st : Stamp) : CellStore :=
  match s.stamp with
  | some old => if old == st then s else { s.clear with stamp := some st }
  | none => { s with stamp := some st }

end CellStore

end SeriesCalc
