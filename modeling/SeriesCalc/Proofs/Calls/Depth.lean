import SeriesCalc.Proofs.Walk.Closed
import SeriesCalc.Proofs.Write
import SeriesCalc.Eval.Run
import SeriesCalc.Proofs.PointerArgs

/-!
# Calls give the depth back

The call depth counts the user calls that are running. A call runs the body one level deeper
against its own copy of the workspace (`Walk.enterBody`), then puts the caller's variables back
and steps one level up from the depth the body leaves (`Walk.leaveBody`). Each run of a statement
thus gives back the depth it starts at, by induction on the call levels: the bodies it calls give
back theirs, so each call steps back to the caller's (`Run.statementAt_depth`), and no statement
changes the depth, whatever it calls and whether it succeeds or fails
(`Runnable.evaluate_depth`).

* **A statement's steps** (`Run.walk_keeps`): a blind property of walk steps (`WalkBlind`)
  holds of the whole walk over a statement once it holds of every position and of the store
  that ends an assignment (`Run.store`).
* **The steps around a body** (`EvalM.CallClosed`): binding arguments, borrowing, and handing
  pointer arguments back are built from blind steps, caught failures and changes of the
  variables and the dataset (`Walk.bindArgs_keeps`, `Walk.giveBack_join_keeps`). A property
  that does not look at the variables, the dataset or the warning log (`EvalM.DataBlind P`)
  is closed so (`Stays.callClosed`).
* **What a call keeps** (`Walk.invoke_stays_of_bodies`, `Walk.call_stays_of_bodies`,
  `Run.statementWith_stays`): such a property, once stepping back from what the frame's body
  leaves restores it. The depth is one when the bodies give back their depth
  (`Walk.depth_leaveBody`, `Walk.call_depth`, `Run.statementWith_depth`). A call made once the
  depth has reached the limit fails at once (`Walk.call_at_limit`).
-/

namespace SeriesCalc

/-- The workspace is at call depth `d`. -/
def Workspace.AtDepth (d : Nat) (ws : Workspace) : Prop := ws.depth = d

namespace EvalM

variable {α β : Type} {fr : Frame} {K : {α : Type} → EvalM α → Prop}

protected theorem WalkBlind.optionMapM (F : WalkBlind fr K) {f : α → EvalM β} :
    ∀ (o : Option α), (∀ a, K (f a)) → K (o.mapM f)
  | none, _ => F.pure _
  | some a, h => F.bind (h a) fun _ => F.pure _

/-- `P` does not look at the variables, the dataset or the warning log. -/
def DataBlind (P : Workspace → Prop) : Prop :=
  ∀ ws vars dataset warnings, P ws → P { ws with vars, dataset, warnings }

namespace DataBlind

variable {P : Workspace → Prop} {ws : Workspace}

theorem vars (hP : DataBlind P) (h : P ws) (v : VarTable) : P { ws with vars := v } :=
  hP ws v ws.dataset ws.warnings h

theorem dataset (hP : DataBlind P) (h : P ws) (d : Dataset) : P { ws with dataset := d } :=
  hP ws ws.vars d ws.warnings h

theorem logBlind (hP : DataBlind P) : LogBlind P := fun ws l h => hP ws ws.vars ws.dataset l h

/-- A write keeps every property blind to the data. -/
theorem of_dataOnly (hP : DataBlind P) {ws' : Workspace} (h : P ws) (hd : ws.DataOnly ws') : P ws' := by
  obtain ⟨v, d, l, rfl⟩ := hd
  exact hP ws v d l h

end DataBlind

end EvalM

namespace Run

open EvalM

/-- The last step of an assignment: the write runs on the workspace taken out of the machine,
which gets it back changed. -/
def store (place : Place) (op : AssignOp) (r : Operand) (target : DeclaredType) : EvalM Unit := do
  let m ← takeMachine
  let (result, ws) := ((Assign.write place op r target).run).run m.ws
  set ({ m with ws } : Machine)
  lift result

theorem assign_eq (lhs : Nat) (op : AssignOp) (rhs : Option Nat) (donate : Bool) :
    assign lhs op rhs donate = (do
      let place ← resolvePlace lhs
      let target := (← read).target
      let r ← rhsOperand op rhs donate
      store place op r target) := rfl

/-- The store leaves the workspace the write leaves. -/
theorem store_ws (place : Place) (op : AssignOp) (r : Operand) (target : DeclaredType) (fr : Frame)
    (m : Machine) :
    ((store place op r target).exec fr m).2.ws = ((Assign.write place op r target).exec m.ws).2 := by
  simp only [store, takeMachine, exec_bind, exec_modifyGet]
  split
  rename_i result ws' hw
  simp only [exec_bind, exec_set, exec_lift]
  have : ((Assign.write place op r target).exec m.ws).2 = ws' := congrArg Prod.snd hw
  rw [this]

/-- The store changes only the data. -/
theorem store_dataOnly (place : Place) (op : AssignOp) (r : Operand) (target : DeclaredType)
    (fr : Frame) (m : Machine) : m.ws.DataOnly ((store place op r target).exec fr m).2.ws := by
  rw [store_ws]
  exact Assign.write_touches place op r target m.ws

variable {fr : Frame} {K : {α : Type} → EvalM α → Prop} (F : WalkBlind fr K)

include F

/-- Resolving a target evaluates only the subscripts along it. -/
theorem resolveInto_keeps (hnode : ∀ c, K (evalNode c)) : ∀ node, K (resolveInto node) := by
  intro node
  induction node using Nat.strongRecOn with
  | ind node ih =>
    rw [resolveInto]
    refine F.read_bind (fun _ => rfl) ?_
    dsimp only
    split
    · refine F.bind F.workspace fun ws => ?_
      split
      · exact F.pure _
      · split
        · exact F.pure _
        · exact F.pure _
    · split
      · exact F.bind (ih _ ‹_›) fun _ =>
          F.bind (Walk.subscripts_keeps F fun a _ => ⟨hnode a, fun lo hi _ => ⟨hnode lo, hnode hi⟩⟩)
            fun _ => F.pure _
      · exact F.throw _
    · split
      · exact F.bind (ih _ ‹_›) fun _ => F.pure _
      · exact F.throw _
    · exact F.fail _

theorem resolvePlace_keeps (hnode : ∀ c, K (evalNode c)) (lhs : Nat) : K (resolvePlace lhs) := by
  unfold resolvePlace
  refine F.read_bind (fun _ => rfl) (F.bind (resolveInto_keeps F hnode lhs) fun rs => ?_)
  obtain ⟨root, steps⟩ := rs
  dsimp only
  split
  · split
    · exact F.bind (F.fail _) fun _ => F.pure _
    · exact F.pure _
  · exact F.bind (F.pure _) fun _ => F.pure _

theorem rhsOperand_keeps (op : AssignOp) (rhs : Option Nat) (donate : Bool) :
    K (rhsOperand op rhs donate) := by
  unfold rhsOperand
  split
  · split
    · exact F.pure _
    · exact F.fail _
  · dsimp only
    split
    · refine F.bind (F.modifyCells _) fun taken => ?_
      split
      · exact F.pure _
      · exact F.bind (F.operand _) fun _ => F.pure _
    · simp only [pure_bind]
      exact F.bind (F.operand _) fun _ => F.pure _

/-- **A closed property holds of a statement's walk** once it holds of every position and of
the store. -/
theorem walk_keeps (hnode : ∀ c, K (evalNode c))
    (hstore : ∀ place op r target, K (store place op r target)) (s : Statement) (wantValue : Bool) :
    K (walk s wantValue) := by
  unfold walk
  refine F.bind (F.optionMapM _ hnode) fun rhsId => ?_
  split
  · rw [assign_eq]
    exact F.bind (F.bind (resolvePlace_keeps F hnode _) fun _ => F.read_bind (fun _ => rfl)
      (F.bind (rhsOperand_keeps F _ _ _) fun _ => hstore _ _ _ _)) fun _ => F.pure _
  · split
    · split
      · dsimp only
        split
        · refine F.bind (F.modifyCells _) fun taken => ?_
          split
          · exact F.pure _
          · exact F.bind (F.operand _) fun _ => F.pure _
        · simp only [pure_bind]
          exact F.bind (F.operand _) fun _ => F.pure _
      · exact F.pure _
    · exact F.pure _

end Run

namespace EvalM

/-- `K` is blind, and closed under the steps a call takes around the body: catching a failure,
and changing the variables or the dataset. -/
structure CallClosed (fr : Frame) (K : {α : Type} → EvalM α → Prop) : Prop
    extends WalkBlind fr K where
  tryCatch : ∀ {α : Type} {x : EvalM α} {h : EvalError → EvalM α}, K x → (∀ e, K (h e)) →
    K (tryCatch x h)
  modifyVars : ∀ g : Workspace → VarTable, K (modifyWorkspace fun ws => { ws with vars := g ws })
  modifyDataset : ∀ g : Workspace → Dataset,
    K (modifyWorkspace fun ws => { ws with dataset := g ws })

namespace CallClosed

variable {α β γ : Type} {fr : Frame} {K : {α : Type} → EvalM α → Prop}

protected theorem map (F : CallClosed fr K) {x : EvalM α} (g : α → β) (hx : K x) : K (g <$> x) := by
  rw [map_eq_pure_bind]
  exact F.bind hx fun _ => F.pure _

protected theorem foldlM (F : CallClosed fr K) {g : β → α → EvalM β} :
    ∀ (l : List α) (b : β), (∀ b, ∀ a ∈ l, K (g b a)) → K (l.foldlM g b)
  | [], _, _ => F.pure _
  | a :: l, b, h => by
    rw [List.foldlM_cons]
    exact F.bind (h b a List.mem_cons_self) fun b' =>
      F.foldlM l b' fun c d hd => h c d (List.mem_cons_of_mem _ hd)

protected theorem forIn (F : CallClosed fr K) {g : γ → β → EvalM (ForInStep β)} :
    ∀ (l : List γ) (b : β), (∀ c ∈ l, ∀ b, K (g c b)) → K (forIn l b g)
  | [], _, _ => F.pure _
  | c :: l, b, h => by
    rw [List.forIn_cons]
    refine F.bind (h c List.mem_cons_self b) fun r => ?_
    cases r with
    | done b' => exact F.pure _
    | yield b' => exact F.forIn l b' fun d hd => h d (List.mem_cons_of_mem _ hd)

end CallClosed

/-- A property blind to the data stays through every step a call takes around the body. -/
theorem Stays.callClosed {fr : Frame} {P : Workspace → Prop} (hP : DataBlind P) :
    CallClosed fr (fun x => Stays fr P x) where
  toWalkBlind := (Stays.walkClosed hP.logBlind).blind
  tryCatch := Stays.tryCatch
  modifyVars _ := Stays.modifyWorkspace fun _ h => hP.vars h _
  modifyDataset _ := Stays.modifyWorkspace fun _ h => hP.dataset h _

end EvalM

namespace Walk

open EvalM

section CallClosed

variable {fr : Frame} {K : {α : Type} → EvalM α → Prop} (F : CallClosed fr K)
  {child : Nat → EvalM Nat}

include F

theorem attempt_keeps {α : Type} {x : EvalM α} (hx : K x) : K (attempt x) := by
  unfold attempt
  refine F.tryCatch (F.map _ hx) fun e => ?_
  split
  · exact F.throw _
  · exact F.pure _

/-- Lending a variable moves it out of the caller's table: only the variables change. -/
theorem borrow_keeps (p : Param) (node : Nat) : K (borrow p node) := by
  unfold borrow
  refine F.read_bind (fun _ => rfl) ?_
  dsimp only
  split
  · split
    · refine F.bind F.workspace fun ws => ?_
      split
      · exact F.bind (F.modifyVars _) fun _ => F.pure _
      · split
        · exact F.pure _
        · exact F.fail _
    · exact F.fail _
  · exact F.fail _

theorem converted_keeps (id : Nat) (t : DeclaredType) : K (converted id t) :=
  F.bind (F.operand id) fun _ => F.bind F.workspace fun _ => F.lift _

theorem bindArgs_keeps :
    ∀ (ps : List (Param × Nat)), (∀ q ∈ ps, K (child q.2)) →
      ∀ (locals : VarTable) (lent : List (String × Lent)), K (bindArgs child ps locals lent) :=
  fun ps hchild => bindArgs_closed (K := K) F.pure F.bind
    (fun p node => attempt_keeps F (borrow_keeps F p node)) ps
    fun pn hpn => attempt_keeps F (F.bind (hchild pn hpn) fun c => converted_keeps F c pn.1.declared)

theorem giveBack_keeps (lent : List (String × Lent)) (locals : VarTable) :
    K (giveBack lent locals) := by
  unfold giveBack
  refine F.bind (F.foldlM _ _ fun acc a _ => ?_) fun r => ?_
  · dsimp only
    split
    · split
      · exact F.bind (F.modifyVars _) fun _ => F.pure _
      · exact F.pure _
    · split
      · refine F.bind F.workspace fun ws => ?_
        split
        · split
          · exact F.bind (F.modifyVars _) fun _ => F.pure _
          · exact F.throw _
        · exact F.pure _
      · exact F.pure _
  · refine F.bind (F.forIn _ _ fun c _ b => ?_) fun _ => ?_
    · obtain ⟨sid, value⟩ := c
      dsimp only
      split
      · refine F.bind F.workspace fun ws => ?_
        split
        · split
          · exact F.bind (F.modifyDataset _) fun _ => F.pure _
          · exact F.throw _
        · exact F.pure _
      · exact F.pure _
    · split
      · exact F.throw _
      · exact F.pure _

/-- What a call does once its body has run or failed: hand the pointer arguments back and
report the first failure. It changes only the variables and the dataset. -/
theorem giveBack_join_keeps (lent : List (String × Lent)) (locals : VarTable)
    (fn : UserFunction) (result : Except EvalError Value) :
    K (do
      let back ← tryCatch (do giveBack lent locals; pure none) fun e => pure (some e)
      match back with
      | some e => pure (fn, Except.error e)
      | none => pure (fn, result)) :=
  F.bind (F.tryCatch (F.bind (giveBack_keeps F _ _) fun _ => F.pure _) fun _ => F.pure _)
    fun back => by
      split
      · exact F.pure _
      · exact F.pure _

end CallClosed

variable {fr : Frame} {P : Workspace → Prop} {child : Nat → EvalM Nat}

theorem borrow_stays (hP : DataBlind P) (p : Param) (node : Nat) : Stays fr P (borrow p node) :=
  borrow_keeps (Stays.callClosed hP) p node

theorem giveBack_stays (hP : DataBlind P) (lent : List (String × Lent)) (locals : VarTable) :
    Stays fr P (giveBack lent locals) :=
  giveBack_keeps (Stays.callClosed hP) lent locals

/-! ### The depth -/

theorem atDepth_dataBlind (d : Nat) : DataBlind (Workspace.AtDepth d) := fun _ _ _ _ h => h

/-- A body that gives back the depth it ran at leaves the caller at the caller's depth: the call
runs it one level deeper and steps back one level after it. -/
theorem depth_leaveBody
    {invoke : Workspace → UserFunction → Workspace × UserFunction × Except EvalError Value}
    (hbal : ∀ ws fn, (invoke ws fn).1.depth = ws.depth) (ws : Workspace) (locals : VarTable)
    (fn : UserFunction) : (leaveBody ws (invoke (enterBody ws locals) fn).1).depth = ws.depth := by
  show (invoke (enterBody ws locals) fn).1.depth - 1 = ws.depth
  rw [hbal]
  rfl

/-- **A call keeps a property blind to the data** once stepping back from what the frame's body
leaves restores it: the body runs against a copy of the workspace one level deeper, and the
caller's variables replace the ones the body ends with. -/
theorem invoke_stays_of_bodies (hP : DataBlind P) {fn : UserFunction} {args : List Nat}
    (hinv : ∀ ws locals fn, P ws → P (leaveBody ws (fr.invoke (enterBody ws locals) fn).1))
    (hchild : ∀ c ∈ args, Stays fr P (child c)) :
    Stays fr P (invoke child fn args) := by
  have F : CallClosed fr (fun x => Stays fr P x) := Stays.callClosed hP
  unfold invoke
  split
  · exact Stays.pure _
  refine (bindArgs_keeps F _ (fun q hq => hchild q.2 (List.of_mem_zip hq).2) _ _).bind fun b => ?_
  obtain ⟨locals, lent, failure⟩ := b
  dsimp only
  split
  · exact (Stays.pure _).bind fun _ => giveBack_join_keeps F lent _ _ _
  · refine Stays.read_bind (Stays.workspace_bind fun m hm => ?_)
    -- the caller's variables are put back on what the body leaves, one level up
    have hback : Stays fr P (modifyWorkspace fun _ => leaveBody m.ws (fr.invoke (enterBody m.ws locals) fn).1) :=
      Stays.modifyWorkspace fun _ _ => hinv m.ws locals fn hm
    refine (?_ : Stays fr P _) m hm
    split
    · split
      · exact (Stays.throw _).bind fun _ => hback.bind fun _ => (Stays.pure _).bind fun _ =>
          giveBack_join_keeps F lent _ _ _
      · exact hback.bind fun _ => (Stays.pure _).bind fun _ => giveBack_join_keeps F lent _ _ _
    · exact hback.bind fun _ => (Stays.pure _).bind fun _ => giveBack_join_keeps F lent _ _ _

/-- A call keeps a property blind to the data and to the function table, under the same
condition on the frame's bodies. -/
theorem call_stays_of_bodies (hP : DataBlind P) (hfun : ∀ ws t, P ws → P { ws with functions := t })
    (hinv : ∀ ws locals fn, P ws → P (leaveBody ws (fr.invoke (enterBody ws locals) fn).1))
    {pos : Nat} {name : String} {args : List Nat} (hchild : ∀ c ∈ args, Stays fr P (child c)) :
    Stays fr P (call child pos name args) := by
  unfold call
  refine Stays.workspace.bind fun ws => ?_
  split
  · exact (Stays.mapM _ hchild).bind fun _ => Stays.compute hP.logBlind _ _
  · refine Stays.ite (Stays.fail _) (Stays.ite (Stays.fail _) ?_)
    split
    · exact Stays.fail _
    · refine (Stays.modifyWorkspace fun _ h => hfun _ _ h).bind fun _ =>
        (invoke_stays_of_bodies hP hinv hchild).bind fun r => ?_
      refine (Stays.modifyWorkspace fun _ h => hfun _ _ h).bind fun _ => ?_
      split
      · exact Stays.throw _
      · exact Stays.compute hP.logBlind _ _

/-- **A call puts the caller's depth back**, in every run, once the frame's bodies give back the
depth they run at. -/
theorem call_depth {d : Nat} {pos : Nat} {name : String} {args : List Nat}
    (hbal : ∀ ws fn, (fr.invoke ws fn).1.depth = ws.depth)
    (hchild : ∀ c ∈ args, Stays fr (Workspace.AtDepth d) (child c)) :
    Stays fr (Workspace.AtDepth d) (call child pos name args) :=
  call_stays_of_bodies (atDepth_dataBlind d) (fun _ _ h => h)
    (fun ws locals fn h => (depth_leaveBody hbal ws locals fn).trans h) hchild

/-- **A call at the depth limit fails at once**: once the depth has reached `max_depth`, calling
a user function fails with the recursion limit before any argument is evaluated or any copy is
taken, and leaves the machine as it was. -/
theorem call_at_limit {m : Machine} {pos : Nat} {name : String} {args : List Nat}
    (hlib : m.ws.library = true → Builtin.ofName? name = none)
    (hdef : m.ws.functions.contains name = true) (hlimit : m.ws.config.maxDepth ≤ m.ws.depth) :
    (call child pos name args).exec fr m =
      (.error (Fault.recursionLimit m.ws.config.maxDepth : EvalError), m) := by
  have hnone : (if m.ws.library then Builtin.ofName? name else none) = none := by
    cases h : m.ws.library
    · rfl
    · simpa using hlib h
  unfold call
  rw [exec_bind, exec_workspace]
  dsimp only
  rw [hnone]
  simp [hdef, hlimit]

end Walk

namespace Run

/-- Failing a statement with a recorded warning clears only the log. -/
theorem checkWarnings_stays {P : Workspace → Prop} (hP : EvalM.LogBlind P) {ws : Workspace}
    (h : P ws) : P (checkWarnings ws).1 := by
  unfold checkWarnings
  split
  · exact hP _ _ h
  · exact h

/-- The walk over a statement keeps a property blind to the data and to the function table, once
the bodies of the functions it calls restore it when the call steps back to the caller. -/
theorem walk_stays {P : Workspace → Prop} (hP : EvalM.DataBlind P)
    (hfun : ∀ ws t, P ws → P { ws with functions := t })
    {invoke : Workspace → UserFunction → Workspace × UserFunction × Except EvalError Value}
    (hinv : ∀ ws locals fn, P ws → P (Walk.leaveBody ws (invoke (Walk.enterBody ws locals) fn).1))
    (wantValue : Bool) (r : Runnable) :
    EvalM.Stays ⟨r.stmt.forest, r.stmt.declared, invoke⟩ P (walk r.stmt wantValue) := by
  have hnode : ∀ c, EvalM.Stays ⟨r.stmt.forest, r.stmt.declared, invoke⟩ P (evalNode c) := fun c =>
    evalNode_keeps (EvalM.Stays.walkClosed hP.logBlind).blind c
      (fun _ _ _ _ _ hn hchild => Walk.call_stays_of_bodies hP hfun hinv fun c hc =>
        hchild c (Forest.Below.kid hn (by simpa [Node.kids] using hc)))
      c (Forest.Below.refl _ _)
  exact walk_keeps (EvalM.Stays.walkClosed hP.logBlind).blind hnode
    (fun place op rhs target m hm => hP.of_dataOnly hm (store_dataOnly place op rhs target _ m))
    r.stmt wantValue

/-- **A statement keeps a property blind to the data and to the function table**, in every run,
once the bodies of the functions it calls restore it when the call steps back to the caller. -/
theorem statementWith_stays {P : Workspace → Prop} (hP : EvalM.DataBlind P)
    (hfun : ∀ ws t, P ws → P { ws with functions := t })
    {invoke : Workspace → UserFunction → Workspace × UserFunction × Except EvalError Value}
    (hinv : ∀ ws locals fn, P ws → P (Walk.leaveBody ws (invoke (Walk.enterBody ws locals) fn).1))
    (wantValue : Bool) {ws : Workspace} (r : Runnable) (hws : P ws) :
    P (statementWith invoke wantValue ws r).1 := by
  unfold statementWith
  dsimp only
  simp only [EvalM.run_eq_exec]
  have hrun := walk_stays hP hfun hinv wantValue r
    ⟨ws, r.cells.validate ⟨ws.dataset.nobs, ws.dataset.epoch, ws.vars.epoch⟩⟩ hws
  generalize (walk r.stmt wantValue).exec _ _ = p at hrun ⊢
  obtain ⟨res, m⟩ := p
  cases res with
  | error e => exact hrun
  | ok v =>
    dsimp only
    split <;> exact checkWarnings_stays hP.logBlind hrun

/-- **A statement keeps the depth**, in every run, once the bodies of the functions it calls give
back the depth they run at. -/
theorem statementWith_depth
    {invoke : Workspace → UserFunction → Workspace × UserFunction × Except EvalError Value}
    (hbal : ∀ ws fn, (invoke ws fn).1.depth = ws.depth) (wantValue : Bool) (ws : Workspace)
    (r : Runnable) : (statementWith invoke wantValue ws r).1.depth = ws.depth :=
  statementWith_stays (Walk.atDepth_dataBlind ws.depth) (fun _ _ h => h)
    (fun w locals fn h => (Walk.depth_leaveBody hbal w locals fn).trans h) wantValue r rfl

/-- Running a function body statement by statement keeps what each statement keeps. -/
theorem bodyRun_stays {Q : Workspace → Prop}
    {run : Bool → Workspace → Runnable → Workspace × Runnable × Except EvalError Value}
    (hrun : ∀ b ws r, Q ws → Q (run b ws r).1) :
    ∀ (ws : Workspace) (rs : List Runnable), Q ws → Q (bodyRun run ws rs).1
  | _, [], h => h
  | ws, r :: rest, h => by
    simp only [bodyRun]
    split
    · exact hrun false ws r h
    · exact bodyRun_stays hrun _ rest (hrun false ws r h)

/-- Running a copy of a function, its body and then its return statement, keeps what each
statement keeps. -/
theorem bodyWith_stays {Q : Workspace → Prop}
    {run : Bool → Workspace → Runnable → Workspace × Runnable × Except EvalError Value}
    (hrun : ∀ b ws r, Q ws → Q (run b ws r).1) (ws : Workspace) (fn : UserFunction) (h : Q ws) :
    Q (bodyWith run ws fn).1 := by
  have hbody := bodyRun_stays hrun ws fn.body h
  unfold bodyWith
  split
  · rename_i heq
    rw [heq] at hbody
    exact hbody
  · rename_i ws' body heq
    rw [heq] at hbody
    split
    · exact hbody
    · dsimp only
      split <;> exact hrun true ws' _ hbody

/-- Running a copy of a function keeps a reading of the workspace that each statement keeps. -/
theorem bodyWith_keeps_field {β : Type} (f : Workspace → β)
    {run : Bool → Workspace → Runnable → Workspace × Runnable × Except EvalError Value}
    (hrun : ∀ b ws r, f (run b ws r).1 = f ws) (ws : Workspace) (fn : UserFunction) :
    f (bodyWith run ws fn).1 = f ws :=
  bodyWith_stays (Q := fun v => f v = f ws) (fun b v r h => (hrun b v r).trans h) ws fn rfl

/-- **Every run gives back the depth it starts at**, with any fuel: by induction on the fuel, the
bodies a statement calls give back their depth, so each call steps back to the caller's. -/
theorem statementAt_depth : ∀ (fuel : Nat) (wantValue : Bool) (ws : Workspace) (r : Runnable),
    (statementAt fuel wantValue ws r).1.depth = ws.depth
  | 0, b, ws, r => statementWith_depth (fun _ _ => rfl) b ws r
  | fuel + 1, b, ws, r =>
    statementWith_depth (bodyWith_keeps_field Workspace.depth (statementAt_depth fuel)) b ws r

end Run

namespace Runnable

/-- **Evaluating a statement leaves the call depth as it was**, whether the statement succeeds
or fails and whatever user functions it calls. -/
theorem evaluate_depth (ws : Workspace) (r : Runnable) : (r.evaluate ws).1.depth = ws.depth :=
  Run.statementAt_depth _ true ws r

end Runnable

end SeriesCalc
