import SeriesCalc.Proofs.Lags
import SeriesCalc.Proofs.MissingValues
import SeriesCalc.Proofs.CompiledRuns
import SeriesCalc.Proofs.Warnings
import SeriesCalc.Proofs.Calls.Balanced
import SeriesCalc.Proofs.Calls.Fuel
import SeriesCalc.Proofs.Calls.Lending
import SeriesCalc.Proofs.Vars.WellFormed
import SeriesCalc.Proofs.Values.WellFormed
import SeriesCalc.Proofs.SeriesWrites

/-!
# Reruns of compiled scalar expressions

A compiled statement keeps its cells from one run to the next. When its right-hand side is a
scalar expression over the variables (`Forest.ScalarExpr`: numbers, variables holding numbers,
unary operators, arithmetic and comparisons, a position possibly below two parents), its first
run leaves every position of the expression with a settled cell (`Forest.SettledCell`): a number
keeps its literal, a variable its alias, an operator its result. A later run against the same
workspace finds each of these cells and writes into it again, so it allocates, discards and
retags nothing and counts every operator write as a reuse.

* `Forest.scalarValue`: the number of a scalar expression, with the warnings its operators
  record, by recursion on positions; `Forest.writes` counts its operator writes.
* `EvalM.evalNode_settles_subtree`: a run whose other cells are settled settles the subtree,
  keeping what was settled before.
* `EvalM.evalNode_of_settled`: a run over a settled subtree keeps every cell and counts
  `Forest.writes` more reuses.
* **`Runnable.compiled_scalar_reruns_reuse_cells`**: after a first run that leaves the workspace
  as it was, every rerun gives the first run's value, leaves the workspace as it was, keeps the
  counts of allocated, discarded and retagged cells and the live cells, and counts each operator
  write as reused. Every rerun then agrees with a one-shot copy
  (`Runnable.scalar_reruns_match_fresh_copy`): with no call in the expression, the cells a
  shared position keeps are written again before they are read.
-/

namespace SeriesCalc

/-! ## Scalar expressions -/

/-- The operators that combine two numbers into a number: arithmetic and comparisons, neither
dotted nor short-circuited. -/
def BinaryOp.isArith (op : BinaryOp) : Bool := op.isNumeric && !op.isDot && !op.isLogical

/-- The number a variable holds; NA when the name holds no number. -/
def VarTable.scalarOf (vars : VarTable) (name : String) : Float :=
  match vars.lookup name with
  | some vid =>
    match vars.get? vid with
    | some (.scalar x) => x
    | _ => NA
  | none => NA

namespace Forest

/-- The subtree at a position is a scalar expression over the variables `vars`: numbers, names
of variables that hold numbers, unary operators, and arithmetic or comparison operators, each
child before its parent. A position may lie below two parents. -/
inductive ScalarExpr (f : Forest) (vars : VarTable) : Nat → Prop
  | num {p : Nat} {x : Float} : f.node? p = some (.num x) → ScalarExpr f vars p
  | var {p n vid : Nat} {x : Float} : f.node? p = some (.ident n) →
      vars.lookup (f.name n) = some vid → vars.get? vid = some (.scalar x) → ScalarExpr f vars p
  | unary {p a : Nat} {op : UnaryOp} : f.node? p = some (.unary op a) → a < p →
      ScalarExpr f vars a → ScalarExpr f vars p
  | binary {p l r : Nat} {op : BinaryOp} : f.node? p = some (.binary op l r) →
      op.isArith = true → l < p → r < p → ScalarExpr f vars l → ScalarExpr f vars r →
      ScalarExpr f vars p

/-- The value of the subtree at `p` read as a scalar expression, recording the warnings of its
operators, children first and left to right. -/
def scalarValue (f : Forest) (vars : VarTable) (absorb : Bool) (p : Nat) : Warned Float :=
  match f.node? p with
  | some (.num x) => pure x
  | some (.ident n) => pure (vars.scalarOf (f.name n))
  | some (.unary op a) =>
    if a < p then Numeric.unaryMap op <$> f.scalarValue vars absorb a else pure NA
  | some (.binary op l r) =>
    if l < p ∧ r < p then do
      let x ← f.scalarValue vars absorb l
      let y ← f.scalarValue vars absorb r
      Kernel.calc op absorb x y
    else pure NA
  | _ => pure NA
termination_by p

/-- The number the subtree at `p` evaluates to; the warnings do not change it
(`fst_run_scalarValue`). -/
def scalarAt (f : Forest) (vars : VarTable) (absorb : Bool) (p : Nat) : Float :=
  ((f.scalarValue vars absorb p).run {}).1

/-- How many operator results a walk over the subtree at `p` writes into cells: one for each
operator position on each path to it, so a position below two parents counts twice. -/
def writes (f : Forest) (p : Nat) : Nat :=
  match f.node? p with
  | some (.unary _ a) => if a < p then f.writes a + 1 else 0
  | some (.binary _ l r) => if l < p ∧ r < p then f.writes l + f.writes r + 1 else 0
  | _ => 0
termination_by p

/-- The cell a position holds once its subtree has been evaluated: a number's literal; a name's
alias of its variable, bound as a number with nothing written yet; an operator's number, with
its kind remembered. -/
def SettledCell (f : Forest) (vars : VarTable) (absorb : Bool) (p : Nat) (c : Cell) : Prop :=
  match f.node? p with
  | some (.num x) => c.payload = .owned (.scalar x) ∧ c.role = .leaf
  | some (.ident n) => ∃ vid, vars.lookup (f.name n) = some vid ∧ c.payload = .alias (.var vid) ∧
      c.role = .leaf ∧ c.lastKind = .null ∧ c.boundKind = .scalar
  | some (.unary ..) | some (.binary ..) =>
      c.payload = .owned (.scalar (f.scalarAt vars absorb p)) ∧ c.lastKind = .scalar
  | _ => False

variable {f : Forest} {vars : VarTable} {absorb : Bool} {p : Nat}

theorem scalarValue_num {x : Float} (hn : f.node? p = some (.num x)) :
    f.scalarValue vars absorb p = pure x := by
  rw [scalarValue, hn]

theorem scalarValue_ident {n : Nat} (hn : f.node? p = some (.ident n)) :
    f.scalarValue vars absorb p = pure (vars.scalarOf (f.name n)) := by
  rw [scalarValue, hn]

theorem scalarValue_unary {op : UnaryOp} {a : Nat} (hn : f.node? p = some (.unary op a)) (ha : a < p) :
    f.scalarValue vars absorb p = Numeric.unaryMap op <$> f.scalarValue vars absorb a := by
  rw [scalarValue, hn]
  exact if_pos ha

theorem scalarValue_binary {op : BinaryOp} {l r : Nat} (hn : f.node? p = some (.binary op l r))
    (hl : l < p) (hr : r < p) :
    f.scalarValue vars absorb p = (do
      let x ← f.scalarValue vars absorb l
      let y ← f.scalarValue vars absorb r
      Kernel.calc op absorb x y) := by
  rw [scalarValue, hn]
  exact if_pos ⟨hl, hr⟩

/-- The warnings recorded before do not change the number. -/
theorem fst_run_scalarValue (p : Nat) (L L' : WarningLog) :
    ((f.scalarValue vars absorb p).run L).1 = ((f.scalarValue vars absorb p).run L').1 := by
  induction p using Nat.strong_induction_on generalizing L L' with
  | _ p ih =>
    rw [scalarValue]
    split
    next => rfl
    next => rfl
    next op a _ =>
      split
      next h => exact congrArg (Numeric.unaryMap op) (ih a h L L')
      next => rfl
    next op l r _ =>
      split
      next h =>
        simp only [StateT.run_bind, Kernel.calc_run]
        exact congrArg₂ (fun x y => (Kernel.apply op absorb x y).1) (ih l h.1 L L') (ih r h.2 _ _)
      next => rfl
    next => rfl

theorem fst_run_eq_scalarAt (L : WarningLog) :
    ((f.scalarValue vars absorb p).run L).1 = f.scalarAt vars absorb p :=
  fst_run_scalarValue p L {}

theorem writes_num {x : Float} (hn : f.node? p = some (.num x)) : f.writes p = 0 := by
  rw [writes, hn]

theorem writes_ident {n : Nat} (hn : f.node? p = some (.ident n)) : f.writes p = 0 := by
  rw [writes, hn]

theorem writes_unary {op : UnaryOp} {a : Nat} (hn : f.node? p = some (.unary op a)) (ha : a < p) :
    f.writes p = f.writes a + 1 := by
  rw [writes, hn]
  exact if_pos ha

theorem writes_binary {op : BinaryOp} {l r : Nat} (hn : f.node? p = some (.binary op l r))
    (hl : l < p) (hr : r < p) : f.writes p = f.writes l + f.writes r + 1 := by
  rw [writes, hn]
  exact if_pos ⟨hl, hr⟩

theorem scalarAt_num {x : Float} (hn : f.node? p = some (.num x)) : f.scalarAt vars absorb p = x := by
  rw [scalarAt, scalarValue_num hn]
  rfl

theorem scalarAt_ident {n : Nat} (hn : f.node? p = some (.ident n)) :
    f.scalarAt vars absorb p = vars.scalarOf (f.name n) := by
  rw [scalarAt, scalarValue_ident hn]
  rfl

theorem scalarAt_unary {op : UnaryOp} {a : Nat} (hn : f.node? p = some (.unary op a)) (ha : a < p) :
    f.scalarAt vars absorb p = Numeric.unaryMap op (f.scalarAt vars absorb a) := by
  rw [scalarAt, scalarValue_unary hn ha]
  rfl

theorem scalarAt_binary {op : BinaryOp} {l r : Nat} (hn : f.node? p = some (.binary op l r))
    (hl : l < p) (hr : r < p) :
    f.scalarAt vars absorb p =
      (Kernel.apply op absorb (f.scalarAt vars absorb l) (f.scalarAt vars absorb r)).1 := by
  rw [scalarAt, scalarValue_binary hn hl hr]
  simp only [StateT.run_bind, Kernel.calc_run]
  exact congrArg (fun y => (Kernel.apply op absorb (f.scalarAt vars absorb l) y).1)
    (fst_run_eq_scalarAt _)

theorem snd_run_unary {op : UnaryOp} {a : Nat} (hn : f.node? p = some (.unary op a)) (ha : a < p)
    (L : WarningLog) :
    ((f.scalarValue vars absorb p).run L).2 = ((f.scalarValue vars absorb a).run L).2 := by
  rw [scalarValue_unary hn ha]
  rfl

theorem snd_run_binary {op : BinaryOp} {l r : Nat} (hn : f.node? p = some (.binary op l r))
    (hl : l < p) (hr : r < p) (L : WarningLog) :
    ((f.scalarValue vars absorb p).run L).2 =
      (Kernel.apply op absorb (f.scalarAt vars absorb l) (f.scalarAt vars absorb r)).2.elim
        ((f.scalarValue vars absorb r).run ((f.scalarValue vars absorb l).run L).2).2
        ((f.scalarValue vars absorb r).run ((f.scalarValue vars absorb l).run L).2).2.record := by
  rw [scalarValue_binary hn hl hr]
  simp only [StateT.run_bind, Kernel.calc_run]
  rw [← fst_run_eq_scalarAt L, ← fst_run_eq_scalarAt ((f.scalarValue vars absorb l).run L).2]
  rfl

theorem settledCell_num {x : Float} {c : Cell} (hn : f.node? p = some (.num x)) :
    f.SettledCell vars absorb p c ↔ c.payload = .owned (.scalar x) ∧ c.role = .leaf := by
  rw [SettledCell, hn]

theorem settledCell_ident {n : Nat} {c : Cell} (hn : f.node? p = some (.ident n)) :
    f.SettledCell vars absorb p c ↔ ∃ vid, vars.lookup (f.name n) = some vid ∧
      c.payload = .alias (.var vid) ∧ c.role = .leaf ∧ c.lastKind = .null ∧ c.boundKind = .scalar := by
  rw [SettledCell, hn]

theorem settledCell_unary {op : UnaryOp} {a : Nat} {c : Cell} (hn : f.node? p = some (.unary op a))
    (ha : a < p) : f.SettledCell vars absorb p c ↔
      c.payload = .owned (.scalar (Numeric.unaryMap op (f.scalarAt vars absorb a))) ∧
        c.lastKind = .scalar := by
  rw [SettledCell, hn, scalarAt_unary hn ha]

theorem settledCell_binary {op : BinaryOp} {l r : Nat} {c : Cell}
    (hn : f.node? p = some (.binary op l r)) (hl : l < p) (hr : r < p) :
    f.SettledCell vars absorb p c ↔ c.payload = .owned (.scalar
      (Kernel.apply op absorb (f.scalarAt vars absorb l) (f.scalarAt vars absorb r)).1) ∧
        c.lastKind = .scalar := by
  rw [SettledCell, hn, scalarAt_binary hn hl hr]

end Forest

/-! ## Counting reuses and writing in place -/

theorem Stamp.beq_self (st : Stamp) : (st == st) = true := by
  obtain ⟨a, b, c⟩ := st
  change (a == a && (b == b && (c == c))) = true
  simp

namespace CellStore

/-- The store with `k` more writes counted as reused. -/
def countReused (s : CellStore) (k : Nat) : CellStore :=
  { s with counters.reused := s.counters.reused + k }

/-- Position `p` owns a cell holding what evaluating its subtree leaves. -/
def SettledAt (s : CellStore) (f : Forest) (vars : VarTable) (absorb : Bool) (p : Nat) : Prop :=
  ∃ id c, s.link p = .own id ∧ s.cell? id = some c ∧ f.SettledCell vars absorb p c

/-- The stores a first run passes through: nothing freed, every position either unlinked or
settled, and no cell with two owners. -/
structure Settling (s : CellStore) (f : Forest) (vars : VarTable) (absorb : Bool) : Prop where
  free_nil : s.free = []
  linked : ∀ q, s.link q = .vacant ∨ s.SettledAt f vars absorb q
  unique : s.OwnUnique

variable {s t : CellStore} {f : Forest} {vars : VarTable} {absorb : Bool}

@[simp] theorem link_countReused (k q : Nat) : (s.countReused k).link q = s.link q := rfl

@[simp] theorem cell?_countReused (k j : Nat) : (s.countReused k).cell? j = s.cell? j := rfl

theorem countReused_add (a b : Nat) : (s.countReused a).countReused b = s.countReused (a + b) := by
  simp only [countReused, Nat.add_assoc]

theorem Settling.countReused (h : s.Settling f vars absorb) (k : Nat) :
    (s.countReused k).Settling f vars absorb :=
  ⟨h.free_nil, h.linked, h.unique⟩

theorem getElem?_cells {id : Nat} {c : Cell} (hc : s.cell? id = some c) :
    s.cells[id]? = some (some c) := by
  unfold cell? at hc
  cases h : s.cells[id]? with
  | none =>
    rw [h] at hc
    cases hc
  | some o =>
    rw [h] at hc
    exact congrArg some hc

/-- Writing a cell with what it already holds changes nothing. -/
theorem modifyCell_of_fixed {id : Nat} {c : Cell} {g : Cell → Cell} (hc : s.cell? id = some c)
    (hg : g c = c) : s.modifyCell id g = s := by
  have hget := getElem?_cells hc
  have hcells : s.cells.set! id (some c) = s.cells := by
    rw [Array.set!_eq_setIfInBounds]
    apply Array.ext_getElem?
    intro j
    rw [Array.getElem?_setIfInBounds]
    split
    next hj =>
      subst hj
      rw [hget, if_pos (Array.getElem?_eq_some_iff.mp hget).1]
    next => rfl
  unfold modifyCell
  rw [hc]
  dsimp only
  rw [hg, hcells]

/-- Two writes of one cell are one write of both changes. -/
theorem modifyCell_modifyCell {id : Nat} {c : Cell} (hc : s.cell? id = some c) (g₁ g₂ : Cell → Cell) :
    (s.modifyCell id g₁).modifyCell id g₂ = s.modifyCell id (g₂ ∘ g₁) := by
  have hm₁ : s.modifyCell id g₁ = { s with cells := s.cells.set! id (some (g₁ c)) } := by
    unfold modifyCell
    rw [hc]
  have hc₁ : ({ s with cells := s.cells.set! id (some (g₁ c)) } : CellStore).cell? id = some (g₁ c) := by
    rw [← hm₁, cell?_modifyCell, if_pos rfl, hc]
    rfl
  rw [hm₁]
  unfold modifyCell
  rw [hc₁, hc]
  dsimp only
  rw [Array.set!_eq_setIfInBounds, Array.set!_eq_setIfInBounds, Array.set!_eq_setIfInBounds,
    Array.setIfInBounds_setIfInBounds]
  rfl

/-- A position that owns a literal cell keeps it. -/
theorem literal_of_leaf {pos id : Nat} {c : Cell} {v w : Value} (hl : s.link pos = .own id)
    (hc : s.cell? id = some c) (hp : c.payload = .owned w) (hr : c.role = .leaf) :
    s.literal pos v = (s, id) := by
  obtain ⟨payload, role, refs, lastKind, boundKind⟩ := c
  dsimp only at hp hr
  subst hp hr
  simp only [literal, hl, hc]

/-- Binding a position whose cell is bound the same way, with nothing written since, changes
nothing. -/
theorem bind_of_bound {pos id : Nat} {c : Cell} {hd : Handle} {k : ValueKind} {r : Role}
    (hl : s.link pos = .own id) (hc : s.cell? id = some c) (hp : c.payload = .alias hd)
    (hr : c.role = r) (hk : c.lastKind = .null) (hb : c.boundKind = k) :
    s.bind pos hd k r = (s, id) := by
  have hfix : (s.modifyCell id fun c =>
      { c with payload := .alias hd, role := r, lastKind := .null, boundKind := k }) = s := by
    refine modifyCell_of_fixed hc ?_
    obtain ⟨payload, role, refs, lastKind, boundKind⟩ := c
    dsimp only at hp hr hk hb
    subst hp hr hk hb
    rfl
  simp only [bind, hl, hc, Option.isSome_some, ↓reduceIte, hfix]

/-- A position that owns a cell holding its own value writes into it. -/
theorem writable_of_owned {pos id : Nat} {c : Cell} {w : Value} (hl : s.link pos = .own id)
    (hc : s.cell? id = some c) (hp : c.payload = .owned w) : s.writable pos = (s, id) := by
  simp only [writable, hl, hc, hp]

/-- Lending a cell that owns its value takes the value out and leaves null in its place. -/
theorem lend_of_owned {id : Nat} {c : Cell} {v : Value} (hc : s.cell? id = some c)
    (hp : c.payload = .owned v) :
    s.lend id = (s.modifyCell id fun c => { c with payload := .owned .null }, v) := by
  obtain ⟨payload, role, refs, lastKind, boundKind⟩ := c
  dsimp only at hp
  subst hp
  simp only [lend, hc]

/-- Lending an owned cell's value and putting the same value back, of the kind written last
and not null, changes nothing but counts one reuse. -/
theorem restore_lend_of_owned {id : Nat} {c : Cell} {v : Value} (hc : s.cell? id = some c)
    (hp : c.payload = .owned v) (hk : c.lastKind = v.kind) (hn : v.kind ≠ .null) :
    (s.lend id).1.restore id v = s.countReused 1 := by
  have hlend := lend_of_owned hc hp
  have hc₁ : (s.modifyCell id fun c => { c with payload := .owned .null }).cell? id =
      some { c with payload := .owned .null } := by
    rw [cell?_modifyCell, if_pos rfl, hc]
    rfl
  have hback : ((s.modifyCell id fun c => { c with payload := .owned .null }).modifyCell id
      fun c => { c with lastKind := v.kind, payload := .owned v }) = s := by
    rw [modifyCell_modifyCell hc]
    refine modifyCell_of_fixed hc ?_
    obtain ⟨payload, role, refs, lastKind, boundKind⟩ := c
    dsimp only at hp hk ⊢
    rw [hp, hk]
    rfl
  rw [hlend]
  unfold restore
  rw [hc₁]
  dsimp only
  rw [hback, hk]
  have hne : (v.kind == .null) = false := by
    cases hv : v.kind with
    | null => exact absurd hv hn
    | _ => rfl
  have hself : (v.kind == v.kind) = true := by
    cases v.kind <;> rfl
  simp only [hne, hself, Bool.false_eq_true, ↓reduceIte]
  rfl

/-! ## A first write at a position -/

/-- `t` is `s` with one more cell `c` at the end of the store, owned by position `pos`, and no
cell freed. -/
structure GrowsAt (s t : CellStore) (pos : Nat) (c : Cell) : Prop where
  cell_eq : ∀ j, t.cell? j = if j = s.cells.size then some c else s.cell? j
  free_nil : t.free = []
  link_eq : ∀ q, t.link q = if q = pos then .own s.cells.size else s.link q
  stamp_eq : t.stamp = s.stamp

theorem stamp_alloc (pl : Payload) (r : Role) : (s.alloc pl r).1.stamp = s.stamp := by
  unfold alloc
  dsimp only
  split <;> rfl

theorem stamp_modifyCell (id : Nat) (g : Cell → Cell) : (s.modifyCell id g).stamp = s.stamp := by
  unfold modifyCell
  split <;> rfl

/-- With no freed cell, a new cell goes at the end of the store. -/
theorem alloc_grows (pos : Nat) (hf : s.free = []) (pl : Payload) (r : Role) :
    (s.alloc pl r).2 = s.cells.size ∧
      GrowsAt s ((s.alloc pl r).1.setLink pos (.own (s.alloc pl r).2)) pos
        { payload := pl, role := r } := by
  obtain ⟨-, -, ⟨hf', -⟩ | ⟨-, hfree, hid, hcells⟩⟩ := alloc_cases (s := s) pl r
  · rw [hf] at hf'
    cases hf'
  · refine ⟨hid, fun j => ?_, by rw [free_setLink, hfree], fun q => ?_, stamp_alloc pl r⟩
    · rw [cell?_setLink, cell?_of_push _ hcells]
    · rw [link_setLink, hid, link_of_links (links_alloc pl r)]

/-- A literal at a position with no link gets a new cell. -/
theorem literal_of_vacant {pos : Nat} {v : Value} (hl : s.link pos = .vacant) (hf : s.free = []) :
    (s.literal pos v).2 = s.cells.size ∧
      GrowsAt s (s.literal pos v).1 pos { payload := .owned v, role := .leaf } := by
  have hlit : s.literal pos v = (((s.alloc (.owned v) .leaf).1.setLink pos .vacant).setLink pos
      (.own (s.alloc (.owned v) .leaf).2), (s.alloc (.owned v) .leaf).2) := by
    simp only [literal, hl, unlink_of_vacant hl, alloc_setLink_comm]
  rw [hlit, setLink_setLink]
  exact alloc_grows pos hf _ _

/-- A name at a position with no link gets a new cell bound to its storage. -/
theorem bind_of_vacant (hd : Handle) (k : ValueKind) (r : Role) {pos : Nat}
    (hl : s.link pos = .vacant) (hf : s.free = []) :
    (s.bind pos hd k r).2 = s.cells.size ∧
      GrowsAt s (s.bind pos hd k r).1 pos { payload := .alias hd, role := r, boundKind := k } := by
  obtain ⟨hid, hg⟩ := alloc_grows pos hf (.alias hd) r
  rw [hid] at hg
  have hbind : s.bind pos hd k r = ((((s.alloc (.alias hd) r).1.setLink pos .vacant).modifyCell
      (s.alloc (.alias hd) r).2 fun c => { c with boundKind := k }).setLink pos
        (.own (s.alloc (.alias hd) r).2), (s.alloc (.alias hd) r).2) := by
    simp only [bind, hl, unlink_of_vacant hl, alloc_setLink_comm]
  rw [hbind, setLink_modifyCell, setLink_setLink, hid]
  refine ⟨rfl, fun j => ?_, by rw [free_modifyCell]; exact hg.free_nil, fun q => ?_,
    by rw [stamp_modifyCell]; exact hg.stamp_eq⟩
  · rw [cell?_modifyCell, hg.cell_eq, if_pos rfl, hg.cell_eq]
    split
    · rfl
    · rfl
  · rw [link_of_links (links_modifyCell _ _)]
    exact hg.link_eq q

/-- An operator at a position with no link writes into a new cell. -/
theorem writable_of_vacant {pos : Nat} (hl : s.link pos = .vacant) (hf : s.free = []) :
    (s.writable pos).2 = s.cells.size ∧
      GrowsAt s (s.writable pos).1 pos { payload := .owned .null, role := .result } := by
  have hw : s.writable pos = ((s.alloc (.owned .null) .result).1.setLink pos
      (.own (s.alloc (.owned .null) .result).2), (s.alloc (.owned .null) .result).2) := by
    simp only [writable, hl]
  rw [hw]
  exact alloc_grows pos hf _ _

/-- Changing the new cell keeps the growth. -/
theorem GrowsAt.modifyCell {pos : Nat} {c : Cell} (h : GrowsAt s t pos c) (g : Cell → Cell) :
    GrowsAt s (t.modifyCell s.cells.size g) pos (g c) := by
  refine ⟨fun j => ?_, by rw [free_modifyCell]; exact h.free_nil, fun q => ?_,
    by rw [stamp_modifyCell]; exact h.stamp_eq⟩
  · rw [cell?_modifyCell, h.cell_eq, if_pos rfl, h.cell_eq]
    split
    · rfl
    · rfl
  · rw [link_of_links (links_modifyCell _ _)]
    exact h.link_eq q

/-- Lending a cell that holds null with nothing written yet, and putting a value back, writes
the value and its kind and counts nothing. -/
theorem restore_lend_of_fresh {id : Nat} {c : Cell} (v : Value) (hc : s.cell? id = some c)
    (hp : c.payload = .owned .null) (hk : c.lastKind = .null) :
    (s.lend id).1.restore id v = s.modifyCell id fun c => { c with lastKind := v.kind, payload := .owned v } := by
  have hlend : s.lend id = (s, .null) := by
    rw [lend_of_owned hc hp]
    -- the cell held null already
    exact congrArg (·, Value.null) (modifyCell_of_fixed hc (by rw [← hp]))
  rw [hlend]
  unfold restore
  rw [hc]
  dsimp only
  rw [hk]
  rfl

/-- A read sees only the cell it reads. -/
theorem read_of_cell?_eq {j : Nat} (h : t.cell? j = s.cell? j) (ws : Workspace) :
    t.read ws j = s.read ws j :=
  read_congr (by unfold content?; rw [h]) ws

/-! ## Settled positions -/

/-- Every settled position of `s` keeps its link and its cell in `t`. -/
def KeepsSettled (f : Forest) (vars : VarTable) (absorb : Bool) (s t : CellStore) : Prop :=
  ∀ q id c, s.link q = .own id → s.cell? id = some c → f.SettledCell vars absorb q c →
    t.link q = .own id ∧ t.cell? id = some c

theorem KeepsSettled.refl (s : CellStore) : KeepsSettled f vars absorb s s :=
  fun _ _ _ hl hc _ => ⟨hl, hc⟩

theorem KeepsSettled.trans {u : CellStore} (h₁ : KeepsSettled f vars absorb s t)
    (h₂ : KeepsSettled f vars absorb t u) : KeepsSettled f vars absorb s u := fun q id c hl hc hs =>
  let ⟨hl', hc'⟩ := h₁ q id c hl hc hs
  h₂ q id c hl' hc' hs

theorem KeepsSettled.settledAt (h : KeepsSettled f vars absorb s t) {q : Nat}
    (hq : s.SettledAt f vars absorb q) : t.SettledAt f vars absorb q :=
  let ⟨id, c, hl, hc, hs⟩ := hq
  let ⟨hl', hc'⟩ := h q id c hl hc hs
  ⟨id, c, hl', hc', hs⟩

/-- The cell a settled position owns is its settled cell. -/
theorem SettledAt.cell_of_link {q id : Nat} (h : s.SettledAt f vars absorb q) (hl : s.link q = .own id) :
    ∃ c, s.cell? id = some c ∧ f.SettledCell vars absorb q c := by
  obtain ⟨id', c, hl', hc, hs⟩ := h
  rw [hl] at hl'
  cases hl'
  exact ⟨c, hc, hs⟩

/-- Two positions, one owner each: different positions own different cells. -/
theorem OwnUnique.ne_of_ne (hu : s.OwnUnique) {p q i j : Nat} (hpq : q ≠ p)
    (hq : s.link q = .own i) (hp : s.link p = .own j) : i ≠ j :=
  fun h => hpq (hu q p j (h ▸ hq) hp)

theorem keepsSettled_countReused (k : Nat) : KeepsSettled f vars absorb s (s.countReused k) :=
  fun _ _ _ hl hc _ => ⟨hl, hc⟩

/-- A cell owned in a store a first run passes through is in the store. -/
theorem Settling.lt_size (h : s.Settling f vars absorb) {q id : Nat} (hl : s.link q = .own id) :
    id < s.cells.size := by
  rcases h.linked q with hv | ⟨id', c, hl', hc, -⟩
  · rw [hl] at hv
    cases hv
  · rw [hl] at hl'
    cases hl'
    exact lt_size_of_cell? hc

/-- A first write at a position with no link settles it when the new cell is what evaluating
the position leaves: settled positions keep their cells, and no cell gets two owners. -/
theorem Settling.settle {p : Nat} {c : Cell} (h : s.Settling f vars absorb) (hv : s.link p = .vacant)
    (hg : GrowsAt s t p c) (hc : f.SettledCell vars absorb p c) :
    t.Settling f vars absorb ∧ t.link p = .own s.cells.size ∧ t.SettledAt f vars absorb p ∧
      KeepsSettled f vars absorb s t := by
  have hlp : t.link p = .own s.cells.size := by rw [hg.link_eq, if_pos rfl]
  have hcp : t.cell? s.cells.size = some c := by rw [hg.cell_eq, if_pos rfl]
  have hlq : ∀ q, q ≠ p → t.link q = s.link q := fun q hq => by rw [hg.link_eq, if_neg hq]
  have hkeep : KeepsSettled f vars absorb s t := fun q id c' hl hc' _ => by
    have hq : q ≠ p := fun hq => by
      rw [hq, hv] at hl
      cases hl
    have hid : id ≠ s.cells.size := Nat.ne_of_lt (lt_size_of_cell? hc')
    exact ⟨(hlq q hq).trans hl, by rw [hg.cell_eq, if_neg hid, hc']⟩
  refine ⟨⟨hg.free_nil, fun q => ?_, fun a b id ha hb => ?_⟩, hlp, ⟨_, c, hlp, hcp, hc⟩, hkeep⟩
  · by_cases hq : q = p
    · subst hq
      exact .inr ⟨_, c, hlp, hcp, hc⟩
    · rcases h.linked q with hvq | hsq
      · exact .inl ((hlq q hq).trans hvq)
      · exact .inr (hkeep.settledAt hsq)
  · -- the new cell is past every cell owned before
    have hold : ∀ q j, q ≠ p → t.link q = .own j → j < s.cells.size :=
      fun q _ hq hl => h.lt_size ((hlq q hq).symm.trans hl)
    by_cases hap : a = p <;> by_cases hbp : b = p
    · rw [hap, hbp]
    · rw [hap, hlp] at ha
      cases ha
      exact absurd (hold b _ hbp hb) (Nat.lt_irrefl _)
    · rw [hbp, hlp] at hb
      cases hb
      exact absurd (hold a _ hap ha) (Nat.lt_irrefl _)
    · exact h.unique a b id ((hlq a hap).symm.trans ha) ((hlq b hbp).symm.trans hb)

/-- A write at a leaf position settles it when it gives a new settled cell where the position
has no link and changes nothing where the position owns a settled cell. -/
theorem Settling.leaf {p : Nat} {w : CellStore × Nat} (h : s.Settling f vars absorb)
    (hnew : s.link p = .vacant →
      ∃ c, w.2 = s.cells.size ∧ GrowsAt s w.1 p c ∧ f.SettledCell vars absorb p c)
    (hold : ∀ id c, s.link p = .own id → s.cell? id = some c → f.SettledCell vars absorb p c →
      w = (s, id)) :
    w.1.Settling f vars absorb ∧ w.1.link p = .own w.2 ∧ w.1.SettledAt f vars absorb p ∧
      KeepsSettled f vars absorb s w.1 ∧ w.1.stamp = s.stamp := by
  rcases h.linked p with hv | ⟨id, c, hl, hc, hset⟩
  · obtain ⟨c, hid, hg, hsc⟩ := hnew hv
    obtain ⟨ht, hlp, hsp, hk⟩ := h.settle hv hg hsc
    rw [hid]
    exact ⟨ht, hlp, hsp, hk, hg.stamp_eq⟩
  · rw [hold id c hl hc hset]
    exact ⟨h, hl, ⟨id, c, hl, hc, hset⟩, .refl s, rfl⟩

/-- A settled cell of a scalar expression reads as the expression's number. -/
theorem read_of_settledCell (ws : Workspace) {q id : Nat} {c : Cell} (hv : ws.vars = vars)
    (hx : f.ScalarExpr vars q) (hc : s.cell? id = some c) (hset : f.SettledCell vars absorb q c) :
    s.read ws id = .ok { value := .scalar (f.scalarAt vars absorb q) } := by
  unfold CellStore.read
  rw [hc]
  dsimp only
  cases hx with
  | num hn =>
    simp only [Forest.SettledCell, hn] at hset
    rw [hset.1, Forest.scalarAt_num hn]
  | var hn hlk hget =>
    simp only [Forest.SettledCell, hn] at hset
    obtain ⟨vid, hlk', hp, -, -, hb⟩ := hset
    rw [hlk] at hlk'
    cases hlk'
    rw [hp, hb, Forest.scalarAt_ident hn]
    simp only [Workspace.resolve, hv, hget, VarTable.scalarOf, hlk]
    rfl
  | unary hn _ _ =>
    simp only [Forest.SettledCell, hn] at hset
    rw [hset.1]
  | binary hn _ _ _ _ _ =>
    simp only [Forest.SettledCell, hn] at hset
    rw [hset.1]

/-- Cells built against the stamp they are checked against are kept. -/
theorem validate_of_stamp {st : Stamp} (h : s.stamp = some st) : s.validate st = s := by
  simp only [validate, h, Stamp.beq_self, ↓reduceIte]

/-- The cells a statement's first run starts from. -/
theorem settling_validate_empty (st : Stamp) :
    (({} : CellStore).validate st).Settling f vars absorb :=
  ⟨rfl, fun _ => .inl rfl, fun _ _ _ h => by cases h⟩

theorem cell?_lend_ne {id j : Nat} (h : j ≠ id) : (s.lend id).1.cell? j = s.cell? j := by
  unfold lend
  split
  · rw [cell?_modifyCell, if_neg h]
  · rfl

end CellStore

namespace Forest

variable {f : Forest} {p : Nat}

/-- A position below `p` is `p` or below one of its children. -/
theorem Below.cases_of_node {q : Nat} {n : Node} (hn : f.node? p = some n) (h : f.Below p q) :
    q = p ∨ ∃ c ∈ n.kids f, f.Below c q := by
  rcases Relation.ReflTransGen.cases_head h with rfl | ⟨c, ⟨n', hn', hc⟩, hcq⟩
  · exact .inl rfl
  · rw [hn] at hn'
    cases hn'
    exact .inr ⟨c, hc, hcq⟩

/-- Only a leaf itself lies below a leaf. -/
theorem Below.eq_of_node {q : Nat} {n : Node} (hn : f.node? p = some n) (hk : n.kids f = [])
    (h : f.Below p q) : q = p :=
  Below.eq_of_leaf (fun n' hn' => by rw [hn] at hn'; cases hn'; exact hk) h

theorem below_unary {op : UnaryOp} {a : Nat} (hn : f.node? p = some (.unary op a)) : f.Below p a :=
  Below.kid hn (List.mem_singleton_self a)

theorem below_binary_left {op : BinaryOp} {l r : Nat} (hn : f.node? p = some (.binary op l r)) :
    f.Below p l :=
  Below.kid hn List.mem_cons_self

theorem below_binary_right {op : BinaryOp} {l r : Nat} (hn : f.node? p = some (.binary op l r)) :
    f.Below p r :=
  Below.kid hn (List.mem_cons_of_mem _ (List.mem_singleton_self r))

end Forest

theorem BinaryOp.isArith_eq_true {op : BinaryOp} (h : op.isArith = true) :
    op.isNumeric = true ∧ op.isDot = false ∧ op.isLogical = false := by
  unfold BinaryOp.isArith at h
  simp only [Bool.and_eq_true, Bool.not_eq_true'] at h
  exact ⟨h.1.1, h.1.2, h.2⟩

theorem Value.kind_scalar_ne_null (x : Float) : (Value.scalar x).kind ≠ .null :=
  fun h => ValueKind.noConfusion h

/-- A unary operator on a number writes the mapped number. -/
theorem Numeric.unary_scalar (env : OpEnv) (op : UnaryOp) (x : Float) :
    Numeric.unary env op { value := .scalar x } = OpM.put (.scalar (Numeric.unaryMap op x)) := by
  cases op <;> rfl

/-! ## Operators writing into their cell -/

namespace EvalM

open Walk

variable {fr : Frame} {m : Machine}

/-- Run from the machine `m` into cell `id`, the operator `op` ends, whatever the cell held,
having written `v` with the warning log `log`, as long as it reads every other cell as `m`
holds it. -/
def OpWrites (fr : Frame) (m : Machine) (id : Nat) (op : OpEnv → OpM Unit) (v : Value)
    (log : WarningLog) : Prop :=
  ∀ env : OpEnv, env.target = fr.target → (∀ j, j ≠ id → env.read j = m.cells.read m.ws j) →
    ∀ w, (op env).run.run ⟨w, m.ws.warnings⟩ = (.ok (), ⟨v, log⟩)

/-- `compute` with an operator that ends writing `v` with the log `log`. -/
theorem compute_exec_run (v : Value) (log : WarningLog) {pos : Nat} {op : OpEnv → OpM Unit}
    (h : ∀ env : OpEnv, env.target = fr.target →
      env.read = ((m.cells.writable pos).1.lend (m.cells.writable pos).2).1.read m.ws →
      (op env).run.run ⟨((m.cells.writable pos).1.lend (m.cells.writable pos).2).2, m.ws.warnings⟩ =
        (.ok (), ⟨v, log⟩)) :
    (compute pos op).exec fr m =
      (.ok (m.cells.writable pos).2, ⟨{ m.ws with warnings := log },
        ((m.cells.writable pos).1.lend (m.cells.writable pos).2).1.restore (m.cells.writable pos).2 v⟩) := by
  simp only [compute, takeMachine, exec_bind, exec_read, exec_modifyGet]
  rw [h _ rfl rfl]
  rfl

/-- An operator at a position that owns a cell holding the value it writes, of the kind written
last: the cells stay as they were, with one more reuse counted. -/
theorem compute_exec_settled {pos id : Nat} {c : Cell} {v : Value} {log : WarningLog}
    {op : OpEnv → OpM Unit} (hl : m.cells.link pos = .own id) (hc : m.cells.cell? id = some c)
    (hp : c.payload = .owned v) (hk : c.lastKind = v.kind) (hn : v.kind ≠ .null)
    (h : OpWrites fr m id op v log) :
    (compute pos op).exec fr m = (.ok id, ⟨{ m.ws with warnings := log }, m.cells.countReused 1⟩) := by
  have hw := CellStore.writable_of_owned hl hc hp
  rw [compute_exec_run v log ?_]
  · rw [hw]
    dsimp only
    rw [CellStore.restore_lend_of_owned hc hp hk hn]
  · intro env ht hr
    rw [hw] at hr ⊢
    exact h env ht (fun j hj => by
      rw [hr]
      exact CellStore.read_of_cell?_eq (CellStore.cell?_lend_ne hj) _) _

/-- An operator at a position with no link, in a store with no freed cell: it writes into a new
cell at the end of the store, which ends holding the value with its kind. -/
theorem compute_exec_vacant {pos : Nat} {v : Value} {log : WarningLog} {op : OpEnv → OpM Unit}
    (hl : m.cells.link pos = .vacant) (hf : m.cells.free = [])
    (h : OpWrites fr m m.cells.cells.size op v log) :
    ∃ t, (compute pos op).exec fr m = (.ok m.cells.cells.size, ⟨{ m.ws with warnings := log }, t⟩) ∧
      m.cells.GrowsAt t pos { payload := .owned v, role := .result, lastKind := v.kind } := by
  obtain ⟨hid, hg⟩ := CellStore.writable_of_vacant hl hf
  have hc : (m.cells.writable pos).1.cell? m.cells.cells.size =
      some { payload := .owned .null, role := .result } := by
    rw [hg.cell_eq, if_pos rfl]
  rw [compute_exec_run v log ?_, hid]
  · refine ⟨_, rfl, ?_⟩
    rw [CellStore.restore_lend_of_fresh v hc rfl rfl]
    exact hg.modifyCell _
  · intro env ht hr
    rw [hid] at hr ⊢
    exact h env ht (fun j hj => by
      rw [hr, CellStore.read_of_cell?_eq (CellStore.cell?_lend_ne hj)]
      exact CellStore.read_of_cell?_eq (by rw [hg.cell_eq, if_neg hj]) _) _

variable {vars : VarTable}

/-- An operator at a position of a store a first run passes through, writing a value that
settles the position: whether the position had a cell or not, it ends settled in a store a first
run passes through, and every position settled before keeps its cell. The operator may read any
cell another position owns. -/
theorem compute_exec_settling {pos : Nat} {v : Value} {log : WarningLog} {op : OpEnv → OpM Unit}
    (h : m.cells.Settling fr.forest vars (fr.target != .matrix))
    (hset : ∀ c : Cell, fr.forest.SettledCell vars (fr.target != .matrix) pos c ↔
      c.payload = .owned v ∧ c.lastKind = v.kind)
    (hn : v.kind ≠ .null)
    (hop : ∀ id, (∀ q j, q ≠ pos → m.cells.link q = .own j → j ≠ id) → OpWrites fr m id op v log) :
    ∃ id t, (compute pos op).exec fr m = (.ok id, ⟨{ m.ws with warnings := log }, t⟩) ∧
      t.link pos = .own id ∧ t.Settling fr.forest vars (fr.target != .matrix) ∧
      t.SettledAt fr.forest vars (fr.target != .matrix) pos ∧
      CellStore.KeepsSettled fr.forest vars (fr.target != .matrix) m.cells t ∧
      t.stamp = m.cells.stamp := by
  rcases h.linked pos with hvac | ⟨id, c, hl, hc, hsc⟩
  · -- a new cell at the end of the store, past every cell owned before
    obtain ⟨t, hrun, hg⟩ := compute_exec_vacant hvac h.free_nil
      (hop _ fun _ _ _ hq => Nat.ne_of_lt (h.lt_size hq))
    obtain ⟨ht, hlp, hsp, hk⟩ := h.settle hvac hg ((hset _).mpr ⟨rfl, rfl⟩)
    exact ⟨_, t, hrun, hlp, ht, hsp, hk, hg.stamp_eq⟩
  · -- the cell it owns already, which no other position owns
    obtain ⟨hp, hk⟩ := (hset c).mp hsc
    have hother : ∀ q j, q ≠ pos → m.cells.link q = .own j → j ≠ id :=
      fun _ _ hq hj => h.unique.ne_of_ne hq hj hl
    exact ⟨id, m.cells.countReused 1, compute_exec_settled hl hc hp hk hn (hop id hother), hl,
      h.countReused 1, ⟨id, c, hl, hc, hsc⟩, CellStore.keepsSettled_countReused 1, rfl⟩

/-! ## One node of a scalar expression -/

theorem evalNode_num_exec {pos : Nat} {x : Float} (hn : fr.forest.node? pos = some (.num x)) :
    (evalNode pos).exec fr m = (.ok (m.cells.literal pos (.scalar x)).2,
      { m with cells := (m.cells.literal pos (.scalar x)).1 }) := by
  rw [evalNode]
  simp only [step, exec_bind, exec_read, hn, EvalM.literal, exec_modifyCells]

theorem evalNode_var_exec {pos n vid : Nat} {x : Float} (hn : fr.forest.node? pos = some (.ident n))
    (hlk : m.ws.vars.lookup (fr.forest.name n) = some vid) (hget : m.ws.vars.get? vid = some (.scalar x)) :
    (evalNode pos).exec fr m = (.ok (m.cells.bind pos (.var vid) .scalar .leaf).2,
      { m with cells := (m.cells.bind pos (.var vid) .scalar .leaf).1 }) := by
  rw [evalNode]
  simp only [step, exec_bind, exec_read, hn, ident, exec_workspace, hlk, hget, Option.map_some,
    Option.getD_some, Value.kind, bindCell, exec_modifyCells]

theorem evalNode_unary_exec {pos a : Nat} {op : UnaryOp} (hn : fr.forest.node? pos = some (.unary op a))
    (ha : a < pos) :
    (evalNode pos).exec fr m = (evalNode a >>= fun i =>
      compute pos fun env => do Numeric.unary env op (← OpM.read env i)).exec fr m := by
  rw [evalNode]
  simp only [step, exec_bind, exec_read, hn, ha, ↓reduceIte]

theorem evalNode_binary_exec {pos l r : Nat} {op : BinaryOp}
    (hn : fr.forest.node? pos = some (.binary op l r)) (hop : op.isLogical = false) (hl : l < pos)
    (hr : r < pos) :
    (evalNode pos).exec fr m = (evalNode l >>= fun i => evalNode r >>= fun j =>
      compute pos fun env => do Binary.apply env op (← OpM.read env i) (← OpM.read env j)).exec fr m := by
  rw [evalNode]
  simp only [step, exec_bind, exec_read, hn, hop, hl, hr, ↓reduceIte, Bool.false_eq_true]

/-- A unary operator on a cell holding a number writes the mapped number and records nothing. -/
theorem opWrites_unary {id i : Nat} {op : UnaryOp} {x : Float}
    (hi : m.cells.read m.ws i = .ok { value := .scalar x }) (hne : i ≠ id) :
    OpWrites fr m id (fun env => do Numeric.unary env op (← OpM.read env i))
      (.scalar (Numeric.unaryMap op x)) m.ws.warnings := by
  intro env _ hr w
  simp only [OpM.read, (hr i hne).trans hi, OpM.lift_ok, pure_bind, Numeric.unary_scalar]
  rfl

/-- An arithmetic or comparison operator on two cells holding numbers writes what the kernel
gives, with the statement's zero-times-NA rule, and records the kernel's warning. -/
theorem opWrites_binary {id i j : Nat} {op : BinaryOp} {x y : Float} (hop : op.isArith = true)
    (hi : m.cells.read m.ws i = .ok { value := .scalar x })
    (hj : m.cells.read m.ws j = .ok { value := .scalar y }) (hne_i : i ≠ id) (hne_j : j ≠ id) :
    OpWrites fr m id (fun env => do Binary.apply env op (← OpM.read env i) (← OpM.read env j))
      (.scalar (Kernel.apply op (fr.target != .matrix) x y).1)
      ((Kernel.apply op (fr.target != .matrix) x y).2.elim m.ws.warnings m.ws.warnings.record) := by
  intro env ht hr w
  obtain ⟨hnum, hdot, -⟩ := BinaryOp.isArith_eq_true hop
  simp only [OpM.read, (hr i hne_i).trans hi, (hr j hne_j).trans hj, OpM.lift_ok, pure_bind]
  rw [Binary.apply_of_scalars rfl rfl hnum hdot]
  have hrun := Numeric.scalar_exec env op x y ⟨w, m.ws.warnings⟩
  simp only [OpEnv.absorb, ht] at hrun
  exact hrun

/-! ## A run over a settled subtree -/

/-- **A settled subtree runs again in place.** Let every position below `p`, a scalar expression
over `vars`, own a cell holding what evaluating it leaves, no cell having two owners. Evaluating
`p` against a workspace with those variables returns `p`'s own cell, records the expression's
warnings, and leaves every cell as it was, with one reuse counted per operator write. -/
theorem evalNode_of_settled (fr : Frame) {p : Nat} (hx : fr.forest.ScalarExpr vars p) :
    ∀ (ws : Workspace) (s : CellStore), ws.vars = vars →
      (∀ q, fr.forest.Below p q → s.SettledAt fr.forest vars (fr.target != .matrix) q) →
      s.OwnUnique →
      ∃ id, s.link p = .own id ∧ (evalNode p).exec fr ⟨ws, s⟩ =
        (.ok id, ⟨{ ws with warnings :=
            ((fr.forest.scalarValue vars (fr.target != .matrix) p).run ws.warnings).2 },
          s.countReused (fr.forest.writes p)⟩) := by
  induction hx with
  | num hn =>
    intro ws s _ hs _
    obtain ⟨id, c, hl, hc, hset⟩ := hs _ (Forest.Below.refl _ _)
    rw [Forest.settledCell_num hn] at hset
    refine ⟨id, hl, ?_⟩
    rw [evalNode_num_exec hn, CellStore.literal_of_leaf hl hc hset.1 hset.2, Forest.scalarValue_num hn,
      Forest.writes_num hn]
    rfl
  | var hn hlk hget =>
    intro ws s hv hs _
    obtain ⟨id, c, hl, hc, hset⟩ := hs _ (Forest.Below.refl _ _)
    obtain ⟨vid, hlk', hp, hr, hk, hb⟩ := (Forest.settledCell_ident hn).mp hset
    rw [hlk] at hlk'
    cases hlk'
    refine ⟨id, hl, ?_⟩
    rw [evalNode_var_exec hn (by rw [hv]; exact hlk) (by rw [hv]; exact hget),
      CellStore.bind_of_bound hl hc hp hr hk hb, Forest.scalarValue_ident hn, Forest.writes_ident hn]
    rfl
  | @unary p a op hn ha hxa ih =>
    intro ws s hv hs hu
    have hbelow := Forest.below_unary hn
    obtain ⟨ia, hla, hrun⟩ := ih ws s hv (fun q hq => hs q (hbelow.trans hq)) hu
    obtain ⟨id, c, hl, hc, hset⟩ := hs _ (Forest.Below.refl _ _)
    rw [Forest.settledCell_unary hn ha] at hset
    obtain ⟨ca, hca, hseta⟩ := (hs _ hbelow).cell_of_link hla
    -- the operand's cell is not the operator's: they have different owners
    have hne : ia ≠ id := hu.ne_of_ne (Nat.ne_of_lt ha) hla hl
    refine ⟨id, hl, ?_⟩
    rw [evalNode_unary_exec hn ha, exec_bind, hrun]
    dsimp only
    rw [compute_exec_settled hl hc hset.1 hset.2 (Value.kind_scalar_ne_null _)
      (opWrites_unary (CellStore.read_of_settledCell _ hv hxa hca hseta) hne),
      CellStore.countReused_add, Forest.writes_unary hn ha, Forest.snd_run_unary hn ha]
  | @binary p l r op hn hop hl hr hxl hxr ihl ihr =>
    intro ws s hv hs hu
    have hbl := Forest.below_binary_left hn
    have hbr := Forest.below_binary_right hn
    obtain ⟨il, hll, hrunl⟩ := ihl ws s hv (fun q hq => hs q (hbl.trans hq)) hu
    obtain ⟨ir, hlr, hrunr⟩ := ihr { ws with warnings :=
        ((fr.forest.scalarValue vars (fr.target != .matrix) l).run ws.warnings).2 }
      (s.countReused (fr.forest.writes l)) hv (fun q hq => hs q (hbr.trans hq)) hu
    rw [CellStore.link_countReused] at hlr
    obtain ⟨id, c, hlp, hc, hset⟩ := hs _ (Forest.Below.refl _ _)
    rw [Forest.settledCell_binary hn hl hr] at hset
    obtain ⟨cl, hcl, hsetl⟩ := (hs _ hbl).cell_of_link hll
    obtain ⟨cr, hcr, hsetr⟩ := (hs _ hbr).cell_of_link hlr
    have hnel : il ≠ id := hu.ne_of_ne (Nat.ne_of_lt hl) hll hlp
    have hner : ir ≠ id := hu.ne_of_ne (Nat.ne_of_lt hr) hlr hlp
    refine ⟨id, hlp, ?_⟩
    rw [evalNode_binary_exec hn (BinaryOp.isArith_eq_true hop).2.2 hl hr, exec_bind, hrunl]
    dsimp only
    rw [exec_bind, hrunr]
    dsimp only
    rw [compute_exec_settled hlp hc hset.1 hset.2 (Value.kind_scalar_ne_null _)
      (opWrites_binary hop (CellStore.read_of_settledCell _ hv hxl hcl hsetl)
        (CellStore.read_of_settledCell _ hv hxr hcr hsetr) hnel hner),
      CellStore.countReused_add, CellStore.countReused_add, Forest.writes_binary hn hl hr,
      Forest.snd_run_binary hn hl hr]

/-- **A first run settles the subtree.** From a store a first run passes through, evaluating a
scalar expression `p` over `vars`, against a workspace with those variables, returns the cell `p`
then owns and records the expression's warnings. The store stays one a first run passes
through, every position below `p` is settled, and every position settled before keeps its
cell. -/
theorem evalNode_settles_subtree (fr : Frame) {p : Nat} (hx : fr.forest.ScalarExpr vars p) :
    ∀ (ws : Workspace) (s : CellStore), ws.vars = vars →
      s.Settling fr.forest vars (fr.target != .matrix) →
      ∃ id t, (evalNode p).exec fr ⟨ws, s⟩ =
          (.ok id, ⟨{ ws with warnings :=
            ((fr.forest.scalarValue vars (fr.target != .matrix) p).run ws.warnings).2 }, t⟩) ∧
        t.link p = .own id ∧ t.Settling fr.forest vars (fr.target != .matrix) ∧
        (∀ q, fr.forest.Below p q → t.SettledAt fr.forest vars (fr.target != .matrix) q) ∧
        CellStore.KeepsSettled fr.forest vars (fr.target != .matrix) s t ∧ t.stamp = s.stamp := by
  induction hx with
  | @num p x hn =>
    intro ws s _ h
    obtain ⟨ht, hlp, hsp, hk, hst⟩ := h.leaf (w := s.literal p (.scalar x))
      (fun hv => by
        obtain ⟨hid, hg⟩ := CellStore.literal_of_vacant hv h.free_nil
        exact ⟨_, hid, hg, (Forest.settledCell_num hn).mpr ⟨rfl, rfl⟩⟩)
      (fun _ _ hl hc hset => by
        obtain ⟨hp, hr⟩ := (Forest.settledCell_num hn).mp hset
        exact CellStore.literal_of_leaf hl hc hp hr)
    refine ⟨_, _, ?_, hlp, ht, fun q hq => Forest.Below.eq_of_node hn rfl hq ▸ hsp, hk, hst⟩
    rw [evalNode_num_exec hn, Forest.scalarValue_num hn]
    rfl
  | @var p n vid x hn hlk hget =>
    intro ws s hv h
    obtain ⟨ht, hlp, hsp, hk, hst⟩ := h.leaf (w := s.bind p (.var vid) .scalar .leaf)
      (fun hvac => by
        obtain ⟨hid, hg⟩ := CellStore.bind_of_vacant (.var vid) .scalar .leaf hvac h.free_nil
        exact ⟨_, hid, hg, (Forest.settledCell_ident hn).mpr ⟨vid, hlk, rfl, rfl, rfl, rfl⟩⟩)
      (fun _ _ hl hc hset => by
        -- the cell is bound to the variable the name looks up now
        obtain ⟨vid', hlk', hp, hr, hk, hb⟩ := (Forest.settledCell_ident hn).mp hset
        rw [hlk] at hlk'
        cases hlk'
        exact CellStore.bind_of_bound hl hc hp hr hk hb)
    refine ⟨_, _, ?_, hlp, ht, fun q hq => Forest.Below.eq_of_node hn rfl hq ▸ hsp, hk, hst⟩
    rw [evalNode_var_exec hn (by rw [hv]; exact hlk) (by rw [hv]; exact hget),
      Forest.scalarValue_ident hn]
    rfl
  | @unary p a op hn ha hxa ih =>
    intro ws s hv h
    obtain ⟨ia, t₁, hrun, hla, ht₁, hsa, hk₁, hst₁⟩ := ih ws s hv h
    obtain ⟨ca, hca, hseta⟩ := (hsa a (Forest.Below.refl _ _)).cell_of_link hla
    have hread := CellStore.read_of_settledCell ({ ws with warnings :=
      ((fr.forest.scalarValue vars (fr.target != .matrix) a).run ws.warnings).2 }) hv hxa hca hseta
    obtain ⟨id, t₂, hrun₂, hlp, ht₂, hsp, hk₂, hst₂⟩ := compute_exec_settling (m := ⟨_, t₁⟩) ht₁
      (fun _ => Forest.settledCell_unary hn ha) (Value.kind_scalar_ne_null _)
      (fun _ hid => opWrites_unary hread (hid a ia (Nat.ne_of_lt ha) hla))
    refine ⟨id, t₂, ?_, hlp, ht₂, fun q hq => ?_, hk₁.trans hk₂, hst₂.trans hst₁⟩
    · rw [evalNode_unary_exec hn ha, exec_bind, hrun]
      dsimp only
      rw [hrun₂, Forest.snd_run_unary hn ha]
    · -- below an operator lie the operator and what lies below its operand
      rcases Forest.Below.cases_of_node hn hq with rfl | ⟨c, hc, hcq⟩
      · exact hsp
      · rw [List.mem_singleton.mp hc] at hcq
        exact hk₂.settledAt (hsa q hcq)
  | @binary p l r op hn hop hl hr hxl hxr ihl ihr =>
    intro ws s hv h
    obtain ⟨il, t₁, hrunl, hll, ht₁, hsl, hk₁, hst₁⟩ := ihl ws s hv h
    obtain ⟨ir, t₂, hrunr, hlr, ht₂, hsr, hk₂, hst₂⟩ := ihr { ws with warnings :=
      ((fr.forest.scalarValue vars (fr.target != .matrix) l).run ws.warnings).2 } t₁ hv ht₁
    -- the right operand's run keeps the left operand's cell
    obtain ⟨cl, hcl₁, hsetl⟩ := (hsl l (Forest.Below.refl _ _)).cell_of_link hll
    obtain ⟨hll₂, hcl⟩ := hk₂ l il cl hll hcl₁ hsetl
    obtain ⟨cr, hcr, hsetr⟩ := (hsr r (Forest.Below.refl _ _)).cell_of_link hlr
    have hreadl := CellStore.read_of_settledCell ({ ws with warnings :=
      ((fr.forest.scalarValue vars (fr.target != .matrix) r).run
        ((fr.forest.scalarValue vars (fr.target != .matrix) l).run ws.warnings).2).2 }) hv hxl hcl hsetl
    have hreadr := CellStore.read_of_settledCell ({ ws with warnings :=
      ((fr.forest.scalarValue vars (fr.target != .matrix) r).run
        ((fr.forest.scalarValue vars (fr.target != .matrix) l).run ws.warnings).2).2 }) hv hxr hcr hsetr
    obtain ⟨id, t₃, hrun₃, hlp, ht₃, hsp, hk₃, hst₃⟩ := compute_exec_settling (m := ⟨_, t₂⟩) ht₂
      (fun _ => Forest.settledCell_binary hn hl hr) (Value.kind_scalar_ne_null _)
      (fun _ hid => opWrites_binary hop hreadl hreadr (hid l il (Nat.ne_of_lt hl) hll₂)
        (hid r ir (Nat.ne_of_lt hr) hlr))
    refine ⟨id, t₃, ?_, hlp, ht₃, fun q hq => ?_, (hk₁.trans hk₂).trans hk₃,
      (hst₃.trans hst₂).trans hst₁⟩
    · rw [evalNode_binary_exec hn (BinaryOp.isArith_eq_true hop).2.2 hl hr, exec_bind, hrunl]
      dsimp only
      rw [exec_bind, hrunr]
      dsimp only
      rw [hrun₃, Forest.snd_run_binary hn hl hr]
    · rcases Forest.Below.cases_of_node hn hq with rfl | ⟨c, hc, hcq⟩
      · exact hsp
      · rcases List.mem_pair.mp hc with rfl | rfl
        · exact hk₃.settledAt (hk₂.settledAt (hsl q hcq))
        · exact hk₃.settledAt (hsr q hcq)

end EvalM

/-! ## A bare compiled statement -/

namespace Run

open EvalM

variable {fr : Frame}

/-- A compiled bare expression walks its right-hand side and gives the value its cell reads
as. -/
theorem walk_bare_exec {s : Statement} {root id : Nat} {m m' : Machine} {o : Operand}
    (hc : s.compiled = true) (hl : s.lhs = none) (hr : s.rhs = some root)
    (hrun : (evalNode root).exec fr m = (.ok id, m')) (hread : m'.cells.read m'.ws id = .ok o) :
    (walk s true).exec fr m = (.ok o.value, m') := by
  simp only [walk, hc, hl, hr, Option.mapM_some, map_eq_pure_bind, Bool.not_true, exec_bind, hrun,
    exec_pure, Bool.false_eq_true, ↓reduceIte, exec_operand, hread]

/-- A compiled bare expression whose walk returns: the statement keeps the cells, gives the
value, and checks the warnings. -/
theorem statementWith_bare
    {invoke : Workspace → UserFunction → Workspace × UserFunction × Except EvalError Value}
    {ws : Workspace} {r : Runnable} {root id : Nat} {m' : Machine} {o : Operand}
    (hc : r.stmt.compiled = true) (hl : r.stmt.lhs = none) (hr : r.stmt.rhs = some root)
    (hrun : (evalNode root).exec ⟨r.stmt.forest, r.stmt.declared, invoke⟩
      ⟨ws, r.cells.validate ⟨ws.dataset.nobs, ws.dataset.epoch, ws.vars.epoch⟩⟩ = (.ok id, m'))
    (hread : m'.cells.read m'.ws id = .ok o) :
    statementWith invoke true ws r = ((checkWarnings m'.ws).1,
      { r with cells := { m'.cells with starting := false } },
      (checkWarnings m'.ws).2.map fun _ => o.value) := by
  unfold statementWith
  dsimp only
  rw [EvalM.run_eq_exec, walk_bare_exec hc hl hr hrun hread]
  simp only [hc, Bool.and_self, ↓reduceIte]
  obtain ⟨ws', checked⟩ := checkWarnings m'.ws
  cases checked <;> rfl

end Run

/-- Adding never warns. -/
theorem Kernel.apply_add_warning (absorb : Bool) (x y : Float) :
    (Kernel.apply .add absorb x y).2 = none := by
  show (if (x.isNaN || y.isNaN) = true then ((0 : Float) / 0, none) else (x + y, none)).2 = none
  split <;> rfl

/-! ## Reruns -/

namespace Runnable

open EvalM

/-- The statement after one more run against `ws`, with the cells that run keeps. -/
def rerun (ws : Workspace) (r : Runnable) : Runnable := (r.evaluate ws).2.1

/-- A compiled statement giving the value of the scalar expression `root` over the variables of
`ws`, whose cells a first run against `ws` has settled. -/
structure SettledFor (r : Runnable) (ws : Workspace) (root : Nat) : Prop where
  compiled : r.stmt.compiled = true
  bare : r.stmt.lhs = none
  rhs : r.stmt.rhs = some root
  expr : r.stmt.forest.ScalarExpr ws.vars root
  stamp : r.cells.stamp = some ⟨ws.dataset.nobs, ws.dataset.epoch, ws.vars.epoch⟩
  settled : ∀ q, r.stmt.forest.Below root q →
    r.cells.SettledAt r.stmt.forest ws.vars (r.stmt.declared != .matrix) q
  unique : r.cells.OwnUnique
  started : r.cells.starting = false

variable {ws : Workspace} {r : Runnable} {root : Nat}

/-- The workspace after the expression's warnings are recorded. -/
def warned (r : Runnable) (ws : Workspace) (root : Nat) : Workspace :=
  { ws with warnings :=
    ((r.stmt.forest.scalarValue ws.vars (r.stmt.declared != .matrix) root).run ws.warnings).2 }

/-- Counting reuses keeps a statement settled. -/
theorem SettledFor.countReused (h : r.SettledFor ws root) (k : Nat) :
    ({ r with cells := r.cells.countReused k } : Runnable).SettledFor ws root :=
  ⟨h.compiled, h.bare, h.rhs, h.expr, h.stamp, h.settled, h.unique, h.started⟩

/-- **A settled statement runs again in place.** It gives the expression's number, records the
expression's warnings, and keeps every cell as it is, counting one reuse per operator write. -/
theorem SettledFor.evaluate (h : r.SettledFor ws root) :
    r.evaluate ws = ((Run.checkWarnings (r.warned ws root)).1,
      { r with cells := r.cells.countReused (r.stmt.forest.writes root) },
      (Run.checkWarnings (r.warned ws root)).2.map fun _ =>
        .scalar (r.stmt.forest.scalarAt ws.vars (r.stmt.declared != .matrix) root)) := by
  obtain ⟨id, hl, hrun⟩ := evalNode_of_settled ⟨r.stmt.forest, r.stmt.declared,
    Run.bodyWith (Run.statementAt ws.config.maxDepth)⟩ h.expr ws r.cells rfl h.settled h.unique
  obtain ⟨c, hc, hset⟩ := (h.settled root (Forest.Below.refl _ _)).cell_of_link hl
  have hread := CellStore.read_of_settledCell (s := r.cells.countReused (r.stmt.forest.writes root))
    (r.warned ws root) rfl h.expr hc hset
  show Run.statementWith _ true ws r = _
  rw [Run.statementWith_bare h.compiled h.bare h.rhs
    (by rw [CellStore.validate_of_stamp h.stamp]; exact hrun) hread]
  have hcells : { r.cells.countReused (r.stmt.forest.writes root) with starting := false } =
      r.cells.countReused (r.stmt.forest.writes root) := by
    rw [← h.started]
    rfl
  rw [hcells]
  rfl

/-- **The first run settles the cells.** A compiled statement giving the value of the scalar
expression `root` over the variables of `ws`, run against `ws` from no cells, gives the
expression's number after recording its warnings, and keeps cells settled for `ws`. -/
theorem evaluate_first (hc : r.stmt.compiled = true) (hl : r.stmt.lhs = none)
    (hr : r.stmt.rhs = some root) (hx : r.stmt.forest.ScalarExpr ws.vars root)
    (hnew : r.cells = {}) :
    ∃ cells : CellStore, r.evaluate ws = ((Run.checkWarnings (r.warned ws root)).1, { r with cells },
        (Run.checkWarnings (r.warned ws root)).2.map fun _ =>
          .scalar (r.stmt.forest.scalarAt ws.vars (r.stmt.declared != .matrix) root)) ∧
      ({ r with cells } : Runnable).SettledFor ws root := by
  obtain ⟨id, t, hrun, hlt, ht, hbelow, -, hstamp⟩ := evalNode_settles_subtree ⟨r.stmt.forest,
    r.stmt.declared, Run.bodyWith (Run.statementAt ws.config.maxDepth)⟩ hx ws
    (({} : CellStore).validate ⟨ws.dataset.nobs, ws.dataset.epoch, ws.vars.epoch⟩) rfl
    (CellStore.settling_validate_empty _)
  obtain ⟨c, hct, hset⟩ := (hbelow root (Forest.Below.refl _ _)).cell_of_link hlt
  have hread := CellStore.read_of_settledCell (r.warned ws root) rfl hx hct hset
  refine ⟨{ t with starting := false }, ?_, ⟨hc, hl, hr, hx, hstamp, hbelow, ht.unique, rfl⟩⟩
  show Run.statementWith _ true ws r = _
  rw [Run.statementWith_bare hc hl hr (by rw [hnew]; exact hrun) hread]
  rfl

/-- Reruns of a settled statement against `ws`: the `n`-th holds the first run's cells with `n` times the operator writes more counted as reused. -/
theorem SettledFor.iterate_rerun (h : r.SettledFor ws root) (n : Nat) :
    (rerun ws)^[n] r = { r with cells := r.cells.countReused (n * r.stmt.forest.writes root) } := by
  induction n with
  | zero =>
    rw [Nat.zero_mul]
    rfl
  | succ n ih =>
    rw [Function.iterate_succ_apply', ih, rerun, (h.countReused _).evaluate]
    change ({ r with cells := (r.cells.countReused _).countReused _ } : Runnable) = _
    rw [CellStore.countReused_add, Nat.succ_mul]

/-- **A compiled scalar expression stops allocating.** Let `r` be a compiled statement, not yet
run, whose right-hand side `root` is a scalar expression over the variables of `ws`: numbers,
names of variables holding numbers, unary operators, arithmetic and comparisons, positions
below two parents allowed. If its first run against `ws` gives `v` and leaves `ws` as it was,
then every later run against `ws` gives `v` and leaves `ws` as it was; its cells count as many
allocated, discarded and retagged as after the first run, with the same cells in use, and
every operator write of the run, always of a number, counts as reused. -/
theorem compiled_scalar_reruns_reuse_cells {ws : Workspace} {r r₁ : Runnable} {root : Nat}
    {v : Value} (hc : r.stmt.compiled = true) (hl : r.stmt.lhs = none)
    (hr : r.stmt.rhs = some root) (hx : r.stmt.forest.ScalarExpr ws.vars root)
    (hnew : r.cells = {}) (h₁ : r.evaluate ws = (ws, r₁, .ok v)) (n : Nat) :
    ((rerun ws)^[n] r₁).evaluate ws = (ws, (rerun ws)^[n + 1] r₁, .ok v) ∧
      ((rerun ws)^[n + 1] r₁).cells.counters = { r₁.cells.counters with
        reused := r₁.cells.counters.reused + (n + 1) * r.stmt.forest.writes root } ∧
      ((rerun ws)^[n + 1] r₁).cells.live = r₁.cells.live := by
  obtain ⟨cells, hfirst, hs⟩ := evaluate_first hc hl hr hx hnew
  rw [hfirst] at h₁
  simp only [Prod.mk.injEq] at h₁
  obtain ⟨hws, rfl, hv⟩ := h₁
  -- every rerun starts from the first run's cells with more reuses counted, so it runs in place
  have hstep : ∀ k, ((rerun ws)^[k] { r with cells }).evaluate ws =
      (ws, (rerun ws)^[k + 1] { r with cells }, .ok v) := by
    intro k
    rw [Function.iterate_succ_apply', rerun, hs.iterate_rerun k, (hs.countReused _).evaluate]
    exact Prod.ext hws (Prod.ext rfl hv)
  refine ⟨hstep n, ?_, ?_⟩
  · rw [hs.iterate_rerun (n + 1)]
    rfl
  · rw [hs.iterate_rerun (n + 1)]
    rfl

/-- **Reruns of a compiled scalar expression agree with a fresh copy.** Let `r` be a compiled
statement, not yet run, whose right-hand side is a scalar expression over the variables of `ws`:
no call runs in it, though a position may lie below two parents. If its first run against `ws`
leaves `ws` as it was, every later run against `ws` leaves the workspace and gives the result
that a one-shot copy run against `ws` from no cells does. -/
theorem scalar_reruns_match_fresh_copy {ws : Workspace} {r r₁ : Runnable} {root : Nat}
    {v : Value} (hc : r.stmt.compiled = true) (hl : r.stmt.lhs = none)
    (hr : r.stmt.rhs = some root) (hx : r.stmt.forest.ScalarExpr ws.vars root)
    (hnew : r.cells = {}) (h₁ : r.evaluate ws = (ws, r₁, .ok v)) (n : Nat) :
    (((rerun ws)^[n] r₁).evaluate ws).1 = (evaluate ws ⟨{ r.stmt with compiled := false }, {}⟩).1 ∧
      (((rerun ws)^[n] r₁).evaluate ws).2.2 =
        (evaluate ws ⟨{ r.stmt with compiled := false }, {}⟩).2.2 := by
  obtain ⟨hsame, hresult⟩ := first_run_matches_fresh_copy ws r.stmt
  -- the first run is the compiled statement's run from no cells
  have hfirst : evaluate ws ⟨r.stmt, {}⟩ = (ws, r₁, .ok v) := by
    rw [← hnew]
    exact h₁
  rw [(compiled_scalar_reruns_reuse_cells hc hl hr hx hnew h₁ n).1, ← hsame, ← hresult, hfirst]
  exact ⟨rfl, rfl⟩

/-- One variable `x` holding 2, over one observation. -/
def scalarXWs : Workspace :=
  { dataset := { nobs := 1, t2 := 0, series := #[{ name := "const", values := #[1] }] },
    vars := ({} : VarTable).push "x" (.scalar 2) (VarTable.lookup_empty "x") }

/-- `x + 1`, compiled and not yet run. -/
def xPlusOne : Runnable :=
  { stmt := { forest := { nodes := #[.ident 0, .num 1, .binary .add 0 1], names := #["x"] },
              rhs := some 2, compiled := true } }

theorem xPlusOne_scalarExpr : xPlusOne.stmt.forest.ScalarExpr scalarXWs.vars 2 :=
  .binary rfl rfl (by decide) (by decide) (.var rfl (by decide +kernel : _ = some 0) rfl) (.num rfl)

/-- `x + 1` with `x` = 2 reruns in place: each run gives the first run's number and counts its
one addition as a reuse. -/
theorem x_plus_one_reruns_in_place : ∃ r₁ v, xPlusOne.evaluate scalarXWs = (scalarXWs, r₁, .ok v) ∧
    ∀ n, ((rerun scalarXWs)^[n] r₁).evaluate scalarXWs =
        (scalarXWs, (rerun scalarXWs)^[n + 1] r₁, .ok v) ∧
      ((rerun scalarXWs)^[n + 1] r₁).cells.counters =
        { r₁.cells.counters with reused := r₁.cells.counters.reused + (n + 1) } ∧
      ((rerun scalarXWs)^[n + 1] r₁).cells.live = r₁.cells.live := by
  have h₀ : xPlusOne.stmt.forest.node? 0 = some (.ident 0) := rfl
  have h₁ : xPlusOne.stmt.forest.node? 1 = some (.num 1) := rfl
  have h₂ : xPlusOne.stmt.forest.node? 2 = some (.binary .add 0 1) := rfl
  obtain ⟨cells, hfirst, -⟩ := evaluate_first rfl rfl rfl xPlusOne_scalarExpr rfl
  -- the addition warns of nothing, so the run leaves the workspace as it was
  have hlog : ((xPlusOne.stmt.forest.scalarValue scalarXWs.vars true 2).run {}).2 = {} := by
    rw [Forest.snd_run_binary h₂ (by decide) (by decide), Kernel.apply_add_warning,
      Forest.scalarValue_ident h₀, Forest.scalarValue_num h₁]
    rfl
  have hw : Run.checkWarnings (xPlusOne.warned scalarXWs 2) = (scalarXWs, .ok ()) := by
    show Run.checkWarnings { scalarXWs with warnings :=
      ((xPlusOne.stmt.forest.scalarValue scalarXWs.vars true 2).run {}).2 } = _
    rw [hlog]
    rfl
  have hrun : xPlusOne.evaluate scalarXWs = (scalarXWs, { xPlusOne with cells },
      .ok (.scalar (xPlusOne.stmt.forest.scalarAt scalarXWs.vars true 2))) := by
    rw [hfirst, hw]
    rfl
  have hwrites : xPlusOne.stmt.forest.writes 2 = 1 := by
    rw [Forest.writes_binary h₂ (by decide) (by decide), Forest.writes_ident h₀, Forest.writes_num h₁]
  refine ⟨_, _, hrun, fun n => ?_⟩
  have h := compiled_scalar_reruns_reuse_cells rfl rfl rfl xPlusOne_scalarExpr rfl hrun n
  rw [hwrites, Nat.mul_one] at h
  exact h

end Runnable

end SeriesCalc
