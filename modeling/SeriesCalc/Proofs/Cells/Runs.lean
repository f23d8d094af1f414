import SeriesCalc.Proofs.Cells.Tidy
import SeriesCalc.Eval.Run

/-!
# Runs keep the cells consistent

A statement's cells outlive its runs: a compiled statement keeps them from one run to the
next. Every run keeps them consistent (`CellStore.Consistent`), whatever the workspace, the
statement and the functions it calls:

* each kind of node keeps the cells consistent and returns a live cell once its children do
  (`Walk.step_tidy`, assembled from `ident_tidy`, `logical_tidy`, ... `call_tidy`);
* so does every position of a tree (`evalNode_tidy`, by induction on the position), and so
  every cell an operator reads or shares is live when it does;
* the target of an assignment, the write and the value read back keep them (`Run.walk_tidy`);
* the cells kept after a run, those it built or none, are consistent
  (`Run.statementWith_consistent`);
* **a statement run again and again keeps consistent cells** (`Runnable.runs_keep_cells_consistent`).

A user function's body runs against cells of its own statements, so a call touches only the
cells of its argument positions.
-/

namespace SeriesCalc

namespace Walk

open EvalM

/-! ### One node

Each node's lemma assumes that evaluating any child, from consistent cells, keeps them
consistent and returns a live cell (`hchild`); `evalNode_tidy` discharges that by induction on
the position. -/

variable {fr : Frame} {child : Nat → EvalM Nat}

theorem ident_tidy (pos : Nat) (name : String) :
    LiveCell fr (ident pos name) := by
  unfold ident
  refine Tidy.workspace.bind fun ws => ?_
  split
  · exact Tidy.bindCell _ _ _ _
  · split
    · exact Tidy.bindCell _ _ _ _
    · exact Tidy.fail _

theorem logical_tidy (hchild : ∀ c, LiveCell fr (child c))
    (pos : Nat) (op : BinaryOp) (l r : Nat) :
    LiveCell fr (logical child pos op l r) := by
  unfold logical
  refine (hchild l).bind fun a => (Tidy.operand a).bind fun o => ?_
  dsimp only
  split
  · split
    · -- the left cell decides and is shared: it is live, as `child` returned it
      exact Tidy.share _ _
    · exact Tidy.compute _ _
  · exact (hchild r).always.bind fun _ => Tidy.compute _ _

theorem seriesConditional_tidy (hchild : ∀ c, LiveCell fr (child c))
    (pos c : Nat) (sample : Array Float) (thenB elseB : Nat) :
    LiveCell fr (seriesConditional child pos c sample thenB elseB) := by
  unfold seriesConditional
  refine Tidy.workspace.bind fun ws => ?_
  dsimp only
  -- a branch that the condition takes everywhere is shared when its value fits as it is
  split
  · exact Tidy.compute _ _
  · exact (hchild thenB).bind fun _ => (Tidy.operand _).bind fun _ =>
      Tidy.ite (Tidy.share _ _) (Tidy.ite (Tidy.compute _ _) (Tidy.compute _ _))
  · exact (hchild elseB).bind fun _ => (Tidy.operand _).bind fun _ =>
      Tidy.ite (Tidy.share _ _) (Tidy.ite (Tidy.compute _ _) (Tidy.compute _ _))
  · exact (hchild thenB).bind fun _ => (hchild elseB).always.bind fun _ => Tidy.compute _ _

theorem conditional_tidy (hchild : ∀ c, LiveCell fr (child c))
    (pos cond thenB elseB : Nat) :
    LiveCell fr (conditional child pos cond thenB elseB) := by
  unfold conditional
  refine (hchild cond).bind fun c => (Tidy.operand c).bind fun o => ?_
  split
  · split
    · exact (hchild thenB).always.bind fun _ => Tidy.share _ _
    · exact (hchild elseB).always.bind fun _ => Tidy.share _ _
    · exact Tidy.compute _ _
  · split
    · exact Tidy.workspace.bind fun _ => (Tidy.lift _).bind fun _ =>
        (seriesConditional_tidy hchild _ _ _ _ _).always
    · exact (hchild thenB).always.bind fun _ => (hchild elseB).always.bind fun _ => Tidy.compute _ _
    · exact Tidy.fail _

/-- Elements evaluated one after another, each returning a live cell that is then only read. -/
theorem children_tidy (hchild : ∀ c, LiveCell fr (child c))
    (cs : List Nat) : Tidy fr (fun _ => True) (cs.mapM child) fun _ _ => True :=
  Tidy.mapM cs fun c _ => (hchild c).forget

theorem matrixLiteral_tidy (hchild : ∀ c, LiveCell fr (child c))
    (pos : Nat) (rows : Children) :
    LiveCell fr (matrixLiteral child pos rows) := by
  unfold matrixLiteral
  refine Tidy.read_bind ((Tidy.mapM _ fun row _ => ?_).bind fun _ => Tidy.compute _ _)
  split
  · exact children_tidy hchild _
  · exact Tidy.throw _

theorem listLiteral_tidy (hchild : ∀ c, LiveCell fr (child c))
    (pos : Nat) (elems : Children) :
    LiveCell fr (listLiteral child pos elems) := by
  unfold listLiteral
  exact Tidy.read_bind ((children_tidy hchild _).bind fun _ => Tidy.compute _ _)

theorem arrayLiteral_tidy (hchild : ∀ c, LiveCell fr (child c))
    (pos : Nat) (elems : Children) :
    LiveCell fr (arrayLiteral child pos elems) := by
  unfold arrayLiteral
  exact Tidy.read_bind ((children_tidy hchild _).bind fun _ => Tidy.compute _ _)

theorem bundleLiteral_tidy (hchild : ∀ c, LiveCell fr (child c))
    (pos : Nat) (pairs : Children) :
    LiveCell fr (bundleLiteral child pos pairs) := by
  unfold bundleLiteral
  refine Tidy.read_bind ((Tidy.mapM _ fun chunk _ => ?_).bind fun _ => Tidy.compute _ _)
  split
  · split
    · exact (hchild _).bind fun _ => (Tidy.pure _).forget
    · exact Tidy.throw _
  · exact Tidy.throw _

/-- A range bound is read as an operand and checked to be a scalar. -/
theorem rangeBound_keepsCells (id : Nat) : KeepsCells fr (do
    let o ← operand id
    match o.scalar? with
    | some x => pure x
    | none => fail (.typeMismatch "scalar range bound" o.kind) : EvalM Float) :=
  (KeepsCells.operand id).bind fun o => by
    split
    · exact KeepsCells.pure _
    · exact KeepsCells.fail _

theorem subscripts_tidy (hchild : ∀ c, LiveCell fr (child c))
    (args : List Nat) : Tidy fr (fun _ => True) (subscripts child args) fun _ _ => True := by
  unfold subscripts
  refine Tidy.read_bind (Tidy.mapM _ fun a _ => ?_)
  split
  · exact Tidy.pure _
  · exact Tidy.pure _
  · exact (hchild _).forget.bind fun _ => (hchild _).forget.bind fun _ => Tidy.of_cells
      ((rangeBound_keepsCells _).bind fun _ => (rangeBound_keepsCells _).bind fun _ => KeepsCells.pure _)
  · refine (hchild a).forget.bind fun id => (Tidy.operand id).bind fun o => Tidy.ite (Tidy.pure _) ?_
    split
    · exact Tidy.pure _
    · exact Tidy.pure _
    · exact Tidy.fail _

/-- Every way through a member lookup ends in the same join: the bound cell, which is live, or
a cell computed from the base. -/
theorem accessJoin_tidy (pos b : Nat) (subs : List Subscript) (bound? : Option Nat) :
    Tidy fr (fun c => ∀ id, bound? = some id → c.Live id) (match bound? with
      | some id => pure id
      | none => compute pos fun env => do
        let base ← OpM.read env b
        OpM.put (← OpM.lift (indexValue base.value subs env.ds))) fun id c => c.Live id := by
  split
  · exact Tidy.returns _ fun _ h => h _ rfl
  · exact Tidy.compute _ _

theorem access_tidy (pos b : Nat) (subs : List Subscript) :
    LiveCell fr (access pos b subs) := by
  unfold access
  refine (Tidy.operand b).bind fun base => ?_
  split
  · exact (Tidy.lift _).bind fun _ => Tidy.bindCell _ _ _ _
  · refine (Tidy.lift _).bind fun _ => Tidy.get.bind fun m => ?_
    dsimp only
    split
    · refine (Tidy.lift _).bind fun _ => Tidy.ite ?_ ?_
      · exact (Tidy.returns _ fun _ _ _ h => by cases h).bind fun _ => accessJoin_tidy pos b _ _
      · -- the cell just bound is the one the join returns
        exact (Tidy.bindCell _ _ _ _).bind fun _ =>
          (Tidy.returns _ fun _ h _ hid => by cases hid; exact h).bind fun _ =>
            accessJoin_tidy pos b _ _
    · exact (Tidy.returns _ fun _ _ _ h => by cases h).bind fun _ => accessJoin_tidy pos b _ _

theorem lag_tidy (hchild : ∀ c, LiveCell fr (child c))
    (pos base k : Nat) : LiveCell fr (lag child pos base k) := by
  unfold lag
  refine (hchild base).forget.bind fun _ => (hchild k).forget.bind fun _ =>
    (Tidy.operand _).bind fun ko => ?_
  dsimp only
  split
  · exact Tidy.ite ((Tidy.pure _).bind fun _ => Tidy.compute _ _)
      ((Tidy.fail (Q := fun _ _ => True) _).bind fun _ => Tidy.compute _ _)
  · exact (Tidy.fail (Q := fun _ _ => True) _).bind fun _ => Tidy.compute _ _

/-! ### Calls

Binding arguments, running a user function and handing pointer arguments back move values
between the workspace's variables and the callee's locals; the only cells they touch are those
of the argument positions, evaluated through `child`. -/

theorem borrow_keepsCells (p : Param) (node : Nat) : KeepsCells fr (borrow p node) := by
  unfold borrow
  refine KeepsCells.read_bind ?_
  split
  · split
    · refine KeepsCells.workspace.bind fun ws => ?_
      split
      · exact (KeepsCells.modifyWorkspace _).bind fun _ => KeepsCells.pure _
      · split
        · exact KeepsCells.pure _
        · exact KeepsCells.fail _
    · exact KeepsCells.fail _
  · exact KeepsCells.fail _

theorem converted_keepsCells (id : Nat) (t : DeclaredType) : KeepsCells fr (converted id t) := by
  unfold converted
  exact (KeepsCells.operand _).bind fun _ => KeepsCells.workspace.bind fun _ => KeepsCells.lift _

theorem bindArgs_tidy (hchild : ∀ c, LiveCell fr (child c)) (ps : List (Param × Nat)) (locals : VarTable)
    (lent : List (String × Lent)) :
    Tidy fr (fun _ => True) (bindArgs child ps locals lent) fun _ _ => True :=
  bindArgs_closed (K := fun x => Tidy fr (fun _ => True) x fun _ _ => True)
    (fun a => Tidy.pure a) (fun hx hf => hx.bind hf)
    (fun p node => (Tidy.of_cells (borrow_keepsCells p node)).attempt) ps
    (fun pn _ => ((hchild pn.2).forget.bind fun c =>
      Tidy.of_cells (converted_keepsCells c pn.1.declared)).attempt) locals lent

/-- Handing pointer arguments back writes the caller's variables and series, and no cell. -/
theorem giveBack_keepsCells (lent : List (String × Lent)) (locals : VarTable) :
    KeepsCells fr (giveBack lent locals) := by
  unfold giveBack
  refine (KeepsCells.foldlM _ _ fun acc a _ => ?_).bind fun r => ?_
  · dsimp only
    split
    · split
      · exact (KeepsCells.modifyWorkspace _).bind fun _ => KeepsCells.pure _
      · exact KeepsCells.pure _
    · split
      · refine KeepsCells.workspace.bind fun ws => ?_
        split
        · split
          · exact (KeepsCells.modifyWorkspace _).bind fun _ => KeepsCells.pure _
          · exact KeepsCells.throw _
        · exact KeepsCells.pure _
      · exact KeepsCells.pure _
  · refine (KeepsCells.forIn _ _ fun c _ b => ?_).bind fun _ => ?_
    · obtain ⟨sid, value⟩ := c
      dsimp only
      split
      · refine KeepsCells.workspace.bind fun ws => ?_
        split
        · split
          · exact (KeepsCells.modifyWorkspace _).bind fun _ => KeepsCells.pure _
          · exact KeepsCells.throw _
        · exact KeepsCells.pure _
      · exact KeepsCells.pure _
    · split
      · exact KeepsCells.throw _
      · exact KeepsCells.pure _

/-- What a call does once its body has run or failed: hand the pointer arguments back and
report the first failure. -/
theorem giveBack_join_keepsCells (lent : List (String × Lent)) (locals : VarTable)
    (fn : UserFunction) (result : Except EvalError Value) :
    KeepsCells fr (do
      let back ← tryCatch (do giveBack lent locals; pure none) fun e => pure (some e)
      match back with
      | some e => pure (fn, Except.error e)
      | none => pure (fn, result)) := by
  refine (KeepsCells.tryCatch ((giveBack_keepsCells lent locals).bind fun _ => KeepsCells.pure _)
    fun _ => KeepsCells.pure _).bind fun back => ?_
  split
  · exact KeepsCells.pure _
  · exact KeepsCells.pure _

/-- Running a user function's body on the bound locals, then handing the pointer arguments
back: the body runs against cells of its own, so the caller's stay as they were. -/
theorem body_keepsCells (fn : UserFunction) (locals : VarTable) (lent : List (String × Lent))
    (failure : Option EvalError) :
    KeepsCells fr (do
      let (fn, result, locals) ← match failure with
        | some e => pure (fn, Except.error e, locals)
        | none => do
          let frame ← read
          let ws ← workspace
          let (after, fn, r) := frame.invoke (enterBody ws locals) fn
          if let .error e := r then if e.isAbort then throw e
          modifyWorkspace fun _ => leaveBody ws after
          pure (fn, r, after.vars)
      let back ← tryCatch (do giveBack lent locals; pure none) fun e => pure (some e)
      match back with
      | some e => return (fn, .error e)
      | none => return (fn, result)) := by
  dsimp only
  split
  · exact (KeepsCells.pure _).bind fun _ => giveBack_join_keepsCells _ _ _ _
  · refine KeepsCells.read_bind (KeepsCells.workspace.bind fun ws => ?_)
    split
    · split
      · exact (KeepsCells.throw _).bind fun _ => (KeepsCells.modifyWorkspace _).bind fun _ =>
          (KeepsCells.pure _).bind fun _ => giveBack_join_keepsCells _ _ _ _
      · exact (KeepsCells.modifyWorkspace _).bind fun _ => (KeepsCells.pure _).bind fun _ =>
          giveBack_join_keepsCells _ _ _ _
    · exact (KeepsCells.modifyWorkspace _).bind fun _ => (KeepsCells.pure _).bind fun _ =>
        giveBack_join_keepsCells _ _ _ _

theorem invoke_tidy (hchild : ∀ c, LiveCell fr (child c))
    (fn : UserFunction) (args : List Nat) :
    Tidy fr (fun _ => True) (invoke child fn args) fun _ _ => True := by
  unfold invoke
  split
  · exact Tidy.pure _
  refine (bindArgs_tidy hchild _ _ _).bind fun b => ?_
  obtain ⟨locals, lent, failure⟩ := b
  exact Tidy.of_cells (body_keepsCells fn locals lent failure)

/-- A call: a builtin computes into the call's own cell; a user function runs against its
locals and its value is stored there too. -/
theorem call_tidy (hchild : ∀ c, LiveCell fr (child c))
    (pos : Nat) (name : String) (args : List Nat) :
    LiveCell fr (call child pos name args) := by
  unfold call
  refine Tidy.workspace.bind fun ws => ?_
  split
  · exact (children_tidy hchild _).bind fun _ => Tidy.compute _ _
  · refine Tidy.ite (Tidy.fail _) (Tidy.ite (Tidy.fail _) ?_)
    split
    · exact Tidy.fail _
    · refine (Tidy.modifyWorkspace _).bind fun _ => (invoke_tidy hchild _ _).bind fun r => ?_
      refine (Tidy.modifyWorkspace _).bind fun _ => ?_
      split
      · exact Tidy.throw _
      · exact Tidy.compute _ _

/-- One node: each kind of node leaves the cells consistent and returns a live cell once its
children do. -/
theorem step_tidy (hchild : ∀ c, LiveCell fr (child c)) (pos : Nat) :
    LiveCell fr (step child pos) := by
  unfold step
  refine Tidy.read_bind ?_
  dsimp only
  split
  · exact Tidy.throw _
  · rename_i n _
    cases n with
    | num x => exact Tidy.literal _ _
    | str s => exact Tidy.literal _ _
    | null => exact Tidy.literal _ _
    | ident name => exact ident_tidy _ _
    | selector d => exact Tidy.fail _
    | all => exact Tidy.fail _
    | unary op x => exact (hchild x).forget.bind fun _ => Tidy.compute _ _
    | binary op l r =>
      exact Tidy.ite (logical_tidy hchild _ _ _ _)
        ((hchild l).forget.bind fun _ => (hchild r).forget.bind fun _ => Tidy.compute _ _)
    | ternary c a b => exact conditional_tidy hchild _ _ _ _
    | call fn args => exact call_tidy hchild _ _ _
    | matrixLit rows => exact matrixLiteral_tidy hchild _ _
    | matrixRow elems => exact Tidy.fail _
    | listLit elems => exact listLiteral_tidy hchild _ _
    | bundleLit pairs => exact bundleLiteral_tidy hchild _ _
    | arrayLit elems => exact arrayLiteral_tidy hchild _ _
    | index base args =>
      exact (hchild base).forget.bind fun _ => (subscripts_tidy hchild _).bind fun _ => access_tidy _ _ _
    | member base key =>
      refine (hchild base).forget.bind fun _ => (Tidy.operand _).bind fun o => ?_
      split
      · exact Tidy.fail _
      · exact Tidy.fail _
      · exact Tidy.fail _
      · exact access_tidy _ _ _
    | range lo hi => exact Tidy.fail _
    | lag base k => exact lag_tidy hchild _ _ _
    | ref x => exact Tidy.fail _

end Walk

/-- **The walk keeps the cells consistent.** Evaluating any position, from consistent cells,
ends with consistent cells whether it returns or fails, and the cell it returns is live. -/
theorem evalNode_tidy {fr : Frame} :
    ∀ pos, EvalM.LiveCell fr (evalNode pos) := by
  intro pos
  induction pos using Nat.strongRecOn with
  | ind pos ih =>
    rw [evalNode]
    refine Walk.step_tidy (fun c => ?_) pos
    split
    · exact ih c ‹_›
    · exact EvalM.Tidy.throw _

namespace Run

open EvalM

variable {fr : Frame}

/-- Resolving a target evaluates only the subscripts along it. -/
theorem resolveInto_tidy : ∀ node, Tidy fr (fun _ => True) (resolveInto node) fun _ _ => True := by
  intro node
  induction node using Nat.strongRecOn with
  | ind node ih =>
    rw [resolveInto]
    refine Tidy.read_bind ?_
    dsimp only
    split
    · refine Tidy.workspace.bind fun ws => ?_
      split
      · exact Tidy.pure _
      · split
        · exact Tidy.pure _
        · exact Tidy.pure _
    · split
      · exact (ih _ ‹_›).bind fun _ => (Walk.subscripts_tidy (evalNode_tidy) _).bind fun _ => Tidy.pure _
      · exact Tidy.throw _
    · split
      · exact (ih _ ‹_›).bind fun _ => Tidy.pure _
      · exact Tidy.throw _
    · exact Tidy.fail _

theorem resolvePlace_tidy (lhs : Nat) : Tidy fr (fun _ => True) (resolvePlace lhs) fun _ _ => True := by
  unfold resolvePlace
  refine Tidy.read.bind fun _ => (resolveInto_tidy lhs).bind fun rs => ?_
  obtain ⟨root, steps⟩ := rs
  dsimp only
  split
  · exact Tidy.ite ((Tidy.fail _).bind fun _ => Tidy.pure _) (Tidy.pure _)
  · exact Tidy.pure _

theorem rhsOperand_tidy (op : AssignOp) (rhs : Option Nat) (donate : Bool) :
    Tidy fr (fun _ => True) (rhsOperand op rhs donate) fun _ _ => True := by
  unfold rhsOperand
  split
  · split
    · exact Tidy.pure _
    · exact Tidy.fail _
  · dsimp only
    split
    · refine (Tidy.takeOwned _).bind fun taken => ?_
      split
      · exact Tidy.pure _
      · exact (Tidy.operand _).bind fun _ => Tidy.pure _
    · simp only [pure_bind]
      exact (Tidy.operand _).bind fun _ => Tidy.pure _

/-- The write of an assignment takes the machine apart and puts it back with the new
workspace: the cells come back as they were. -/
theorem assign_tidy (lhs : Nat) (op : AssignOp) (rhs : Option Nat) (donate : Bool) :
    Tidy fr (fun _ => True) (assign lhs op rhs donate) fun _ _ => True := by
  unfold assign
  refine (resolvePlace_tidy lhs).bind fun _ => Tidy.read.bind fun _ =>
    (rhsOperand_tidy op rhs donate).bind fun _ => Tidy.forget (Tidy.of_cells fun m => ?_)
  simp only [takeMachine, exec_bind, exec_modifyGet]
  split
  simp only [exec_bind, exec_set, exec_lift]

/-- One walk over a statement: the right-hand side, the assignment or the value read back. -/
theorem walk_tidy (st : Statement) (wantValue : Bool) :
    Tidy fr (fun _ => True) (walk st wantValue) fun _ _ => True := by
  unfold walk
  refine (Tidy.optionMapM _ fun n _ => (evalNode_tidy n).forget).bind fun rhsId => ?_
  split
  · exact (assign_tidy _ _ _ _).bind fun _ => Tidy.pure _
  · split
    · split
      · dsimp only
        split
        · refine (Tidy.takeOwned _).bind fun taken => ?_
          split
          · exact Tidy.pure _
          · exact (Tidy.operand _).bind fun _ => Tidy.pure _
        · simp only [pure_bind]
          exact (Tidy.operand _).bind fun _ => Tidy.pure _
      · exact Tidy.pure _
    · exact Tidy.pure _

/-- **A run keeps the cells consistent.** Whatever the workspace and whatever runs the bodies
of user functions, a statement run from consistent cells keeps consistent cells: those it
built, when it is compiled and succeeded, and none otherwise. -/
theorem statementWith_consistent
    (invoke : Workspace → UserFunction → Workspace × UserFunction × Except EvalError Value)
    (wantValue : Bool) (ws : Workspace) (r : Runnable) (h : r.cells.Consistent) :
    (statementWith invoke wantValue ws r).2.1.cells.Consistent := by
  unfold statementWith
  dsimp only
  simp only [EvalM.run_eq_exec]
  have hwalk : Tidy ⟨r.stmt.forest, r.stmt.declared, invoke⟩ _ _ _ := walk_tidy r.stmt wantValue
  have hrun := (hwalk ⟨ws, r.cells.validate ⟨ws.dataset.nobs, ws.dataset.epoch, ws.vars.epoch⟩⟩
    (h.validate _) trivial).1
  generalize (walk r.stmt wantValue).exec _ _ = p at hrun ⊢
  obtain ⟨res, m⟩ := p
  dsimp only at hrun ⊢
  -- the cells kept: those built, marked as past their first run, or none
  cases res with
  | error e =>
    simp only [Bool.and_false, Bool.false_eq_true, ite_false]
    exact hrun.clear
  | ok v =>
    simp only [Bool.and_true]
    split
    · split
      · exact hrun.of_same rfl rfl rfl rfl rfl
      · exact hrun.clear
    · split
      · exact hrun.of_same rfl rfl rfl rfl rfl
      · exact hrun.clear

end Run

namespace Runnable

/-- Evaluating a statement keeps its cells consistent. -/
theorem evaluate_consistent (ws : Workspace) (r : Runnable) (h : r.cells.Consistent) :
    (r.evaluate ws).2.1.cells.Consistent :=
  Run.statementWith_consistent _ true ws r h

/-- **The cells stay consistent over any sequence of runs.** A statement that starts with no
cells and is run again and again, each time against any workspace, has consistent cells after
every run: every link names a live cell, every live cell counts its links, the free list holds
the freed numbers once each, and the cells made are those discarded and those live. -/
theorem runs_keep_cells_consistent (st : Statement) (wss : List Workspace) :
    (wss.foldl (fun (r : Runnable) ws => (r.evaluate ws).2.1) { stmt := st }).cells.Consistent := by
  -- the invariant is carried run by run from the empty store
  suffices h : ∀ r : Runnable, r.cells.Consistent →
      (wss.foldl (fun (r : Runnable) ws => (r.evaluate ws).2.1) r).cells.Consistent from
    h _ CellStore.Consistent.empty
  induction wss with
  | nil => exact fun _ h => h
  | cons ws wss ih => exact fun r h => ih _ (evaluate_consistent ws r h)

end Runnable

end SeriesCalc
