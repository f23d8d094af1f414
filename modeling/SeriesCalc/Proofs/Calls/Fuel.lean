import SeriesCalc.Proofs.Calls.Depth

/-!
# Fuel never decides a run

A statement runs with `fuel` call levels (`Run.statementAt`): each user call runs its body with
one level less, and a call with none left fails with the recursion limit. The depth limit is
checked before every call, so a run at depth `d` never calls deeper than `maxDepth`, and fuel
`maxDepth - d` is enough: with any more, the run is the same (`Run.statementAt_fuel_irrelevant`),
and evaluating a statement is its run with any fuel that covers the levels left
(**`Runnable.evaluate_eq_statementAt`**). The walk is thus well founded on the levels left and,
within one level, on the position in the forest (`evalNode`, by the position).

* **The configuration** (`Run.statementAt_config`): no run changes it, whatever it calls.
* **Running alike** (`EvalM.Alike fr G P x`): from a machine whose workspace satisfies `P`, `x`
  keeps `P` and runs alike in `fr` and in every frame that runs bodies as `fr` does on the
  workspaces `G`. It is closed under the steps of a walk and of a call around the body
  (`Alike.callClosed`).
* **A call runs its body one level deeper, below the limit** (`Walk.call_alike`): at level `d`,
  a walk runs bodies only at level `d + 1 ≤ maxDepth`, so two frames that run bodies alike there
  run the statement alike (`Run.statementWith_congr`).
* **Induction on the fuel** (`Run.statementAt_succ`): one more level of fuel changes nothing once
  the fuel covers the levels left, since the bodies run at the next level with a fuel that still
  covers them.
-/

namespace SeriesCalc

/-- The workspace is at call depth `d` under the configuration `c`. -/
def Workspace.AtLevel (d : Nat) (c : Config) (ws : Workspace) : Prop := ws.depth = d ∧ ws.config = c

/-- A way of running bodies that gives back the level each body runs at. -/
def KeepsLevel
    (invoke : Workspace → UserFunction → Workspace × UserFunction × Except EvalError Value) : Prop :=
  ∀ ws fn, (invoke ws fn).1.AtLevel ws.depth ws.config

namespace Workspace.AtLevel

theorem dataBlind (d : Nat) (c : Config) : EvalM.DataBlind (AtLevel d c) := fun _ _ _ _ h => h

theorem functions {d : Nat} {c : Config} {ws : Workspace} (h : ws.AtLevel d c) (t : FunctionTable) :
    AtLevel d c { ws with functions := t } :=
  h

/-- Stepping back to the caller from what a body leaves restores the level, when the body keeps
the level it runs at. -/
theorem restore {d : Nat} {c : Config}
    {invoke : Workspace → UserFunction → Workspace × UserFunction × Except EvalError Value}
    (hkeep : KeepsLevel invoke) (ws : Workspace)
    (locals : VarTable) (fn : UserFunction) (h : ws.AtLevel d c) :
    AtLevel d c (Walk.leaveBody ws (invoke (Walk.enterBody ws locals) fn).1) :=
  ⟨(Walk.depth_leaveBody (fun w fn => (hkeep w fn).1) ws locals fn).trans h.1,
    (hkeep _ fn).2.trans h.2⟩

end Workspace.AtLevel

namespace Run

/-- A statement keeps the configuration once the bodies it runs do. -/
theorem statementWith_config
    {invoke : Workspace → UserFunction → Workspace × UserFunction × Except EvalError Value}
    (hkeep : ∀ ws fn, (invoke ws fn).1.config = ws.config) (wantValue : Bool) (ws : Workspace)
    (r : Runnable) : (statementWith invoke wantValue ws r).1.config = ws.config :=
  statementWith_stays (P := fun v => v.config = ws.config) (fun _ _ _ _ h => h) (fun _ _ h => h)
    (fun _ _ fn h => (hkeep _ fn).trans h) wantValue r rfl

/-- **No run changes the configuration**, with any fuel. -/
theorem statementAt_config : ∀ (fuel : Nat) (wantValue : Bool) (ws : Workspace) (r : Runnable),
    (statementAt fuel wantValue ws r).1.config = ws.config
  | 0, b, ws, r => statementWith_config (fun _ _ => rfl) b ws r
  | fuel + 1, b, ws, r =>
    statementWith_config (bodyWith_keeps_field Workspace.config (statementAt_config fuel)) b ws r

/-- A run keeps the level it starts at. -/
theorem statementAt_level (fuel : Nat) (wantValue : Bool) (ws : Workspace) (r : Runnable) :
    (statementAt fuel wantValue ws r).1.AtLevel ws.depth ws.config :=
  ⟨statementAt_depth fuel wantValue ws r, statementAt_config fuel wantValue ws r⟩

/-- Bodies run with any fuel hand back the level they were called at. -/
theorem keepsLevel_bodyWith (fuel : Nat) : KeepsLevel (bodyWith (statementAt fuel)) := fun ws fn =>
  ⟨bodyWith_keeps_field Workspace.depth (statementAt_depth fuel) ws fn,
    bodyWith_keeps_field Workspace.config (statementAt_config fuel) ws fn⟩

end Run

namespace EvalM

variable {α β : Type} {fr : Frame} {G P : Workspace → Prop}

/-- From `m`, `x` keeps `P` in `fr`, and runs alike in `fr` and in every frame that runs the
bodies of user functions as `fr` does on the workspaces `G`. -/
def AlikeAt (fr : Frame) (G P : Workspace → Prop) (x : EvalM α) (m : Machine) : Prop :=
  P (x.exec fr m).2.ws ∧ ∀ inv, (∀ ws fn, G ws → inv ws fn = fr.invoke ws fn) →
    x.exec { fr with invoke := inv } m = x.exec fr m

/-- `x` runs alike from every machine whose workspace satisfies `P`. -/
def Alike (fr : Frame) (G P : Workspace → Prop) (x : EvalM α) : Prop :=
  ∀ m, P m.ws → AlikeAt fr G P x m

namespace Alike

theorem stays {x : EvalM α} (h : Alike fr G P x) : Stays fr P x := fun m hm => (h m hm).1

protected theorem bind {x : EvalM α} {f : α → EvalM β} (hx : Alike fr G P x)
    (hf : ∀ a, Alike fr G P (f a)) : Alike fr G P (x >>= f) := by
  intro m hm
  obtain ⟨hxP, hx⟩ := hx m hm
  refine ⟨?_, fun inv hinv => ?_⟩
  · rw [exec_bind]
    cases h : (x.exec fr m).1 with
    | ok a => exact (hf a _ hxP).1
    | error e => exact hxP
  · rw [exec_bind, exec_bind, hx inv hinv]
    cases h : (x.exec fr m).1 with
    | ok a => exact (hf a _ hxP).2 inv hinv
    | error e => rfl

protected theorem tryCatch {x : EvalM α} {h : EvalError → EvalM α} (hx : Alike fr G P x)
    (hh : ∀ e, Alike fr G P (h e)) : Alike fr G P (tryCatch x h) := by
  intro m hm
  obtain ⟨hxP, hx⟩ := hx m hm
  refine ⟨?_, fun inv hinv => ?_⟩
  · rw [exec_tryCatch]
    cases hr : (x.exec fr m).1 with
    | ok a => exact hxP
    | error e => exact (hh e _ hxP).1
  · rw [exec_tryCatch, exec_tryCatch, hx inv hinv]
    cases hr : (x.exec fr m).1 with
    | ok a => rfl
    | error e => exact (hh e _ hxP).2 inv hinv

protected theorem read_bind {f : Frame → EvalM β} (hf : ∀ inv, f { fr with invoke := inv } = f fr)
    (h : Alike fr G P (f fr)) : Alike fr G P (read >>= f) := by
  intro m hm
  obtain ⟨hP, heq⟩ := h m hm
  refine ⟨hP, fun inv hinv => ?_⟩
  rw [exec_bind, exec_bind, exec_read, exec_read]
  dsimp only
  rw [hf inv]
  exact heq inv hinv

/-- A step that sees the workspace runs alike once it does from each machine it may see. -/
theorem workspace_bind {f : Workspace → EvalM β} (h : ∀ m, P m.ws → AlikeAt fr G P (f m.ws) m) :
    Alike fr G P (workspace >>= f) := by
  intro m hm
  obtain ⟨hP, heq⟩ := h m hm
  refine ⟨?_, fun inv hinv => ?_⟩
  · rw [exec_bind, exec_workspace]
    exact hP
  · rw [exec_bind, exec_bind, exec_workspace, exec_workspace]
    exact heq inv hinv

/-- `compute` reads only the frame's target. -/
theorem compute_blind (pos : Nat) (op : OpEnv → OpM Unit) (inv) (m : Machine) :
    (compute pos op).exec { fr with invoke := inv } m = (compute pos op).exec fr m := by
  simp only [compute, takeMachine, exec_bind, exec_read, exec_modifyGet]
  split
  rename_i r s _
  cases r <;> rfl

theorem modifyWorkspace {g : Workspace → Workspace} (h : ∀ ws, P ws → P (g ws)) :
    Alike fr G P (modifyWorkspace g) :=
  fun m hm => ⟨h m.ws hm, fun _ _ => rfl⟩

/-- A step that reads the frame to run a body from the workspace it sees runs alike once the
frames agree on that body. -/
theorem read_workspace_bind {g : Frame → Workspace → EvalM β}
    (hg : ∀ inv ws, P ws → (∀ ws fn, G ws → inv ws fn = fr.invoke ws fn) →
      g { fr with invoke := inv } ws = g fr ws)
    (h : ∀ m, P m.ws → AlikeAt fr G P (g fr m.ws) m) :
    Alike fr G P (read >>= fun frame => workspace >>= fun ws => g frame ws) := by
  intro m hm
  obtain ⟨hP, heq⟩ := h m hm
  refine ⟨?_, fun inv hinv => ?_⟩
  · rw [exec_bind, exec_read]
    dsimp only
    rw [exec_bind, exec_workspace]
    exact hP
  · rw [exec_bind, exec_bind, exec_read, exec_read]
    dsimp only
    rw [exec_bind, exec_bind, exec_workspace, exec_workspace]
    dsimp only
    rw [hg inv m.ws hm hinv]
    exact heq inv hinv

/-- Running alike is closed under the steps of a walk and of a call around the body, for a
property blind to the data. -/
theorem callClosed (hP : DataBlind P) : CallClosed fr (Alike fr G P) where
  of_ws hws hblind := fun m hm => ⟨(hws m) ▸ hm, fun inv _ => hblind inv m⟩
  compute pos op := fun m hm => ⟨Stays.compute hP.logBlind pos op m hm, fun inv _ => compute_blind pos op inv m⟩
  bind := Alike.bind
  read_bind := Alike.read_bind
  tryCatch := Alike.tryCatch
  modifyVars _ := modifyWorkspace fun _ h => hP.vars h _
  modifyDataset _ := modifyWorkspace fun _ h => hP.dataset h _

end Alike

end EvalM

/-- The workspaces a call at depth `d` under `c` runs a body at, when the depth is below the
limit: one level deeper, under the same configuration. -/
def Workspace.CalleeOf (d : Nat) (c : Config) (ws : Workspace) : Prop :=
  ws.AtLevel (d + 1) c ∧ d < c.maxDepth

namespace Walk

open EvalM

variable {fr : Frame} {d : Nat} {c : Config} {child : Nat → EvalM Nat}

/-- **A call below the limit runs its body one level deeper**, so it runs alike in two frames
that agree there, once its arguments do. -/
theorem invoke_alike (hd : d < c.maxDepth) (hkeep : KeepsLevel fr.invoke)
    {fn : UserFunction} {args : List Nat}
    (hchild : ∀ a ∈ args, Alike fr (Workspace.CalleeOf d c) (Workspace.AtLevel d c) (child a)) :
    Alike fr (Workspace.CalleeOf d c) (Workspace.AtLevel d c) (invoke child fn args) := by
  have F : CallClosed fr (Alike fr (Workspace.CalleeOf d c) (Workspace.AtLevel d c)) :=
    Alike.callClosed (Workspace.AtLevel.dataBlind d c)
  unfold invoke
  split
  · exact F.pure _
  refine F.bind (bindArgs_keeps F _ (fun q hq => hchild q.2 (List.of_mem_zip hq).2) _ _) fun b => ?_
  obtain ⟨locals, lent, failure⟩ := b
  dsimp only
  split
  · exact F.bind (F.pure _) fun _ => giveBack_join_keeps F lent _ _ _
  · refine Alike.read_workspace_bind (fun inv ws hws hinv => ?_) (fun m hm => ?_)
    · -- the frames run the body alike at the level below
      have hcallee : Workspace.CalleeOf d c (enterBody ws locals) :=
        ⟨⟨show ws.depth + 1 = d + 1 by rw [hws.1], hws.2⟩, hd⟩
      dsimp only
      rw [hinv _ fn hcallee]
    · have hback : Alike fr (Workspace.CalleeOf d c) (Workspace.AtLevel d c) (modifyWorkspace fun _ =>
          leaveBody m.ws (fr.invoke (enterBody m.ws locals) fn).1) :=
        Alike.modifyWorkspace fun _ _ => Workspace.AtLevel.restore hkeep m.ws locals fn hm
      refine (?_ : Alike fr _ _ _) m hm
      split
      · split
        · exact F.bind (F.throw _) fun _ => F.bind hback fun _ => F.bind (F.pure _) fun _ =>
            giveBack_join_keeps F lent _ _ _
        · exact F.bind hback fun _ => F.bind (F.pure _) fun _ => giveBack_join_keeps F lent _ _ _
      · exact F.bind hback fun _ => F.bind (F.pure _) fun _ => giveBack_join_keeps F lent _ _ _

/-- A call runs alike: a builtin once its arguments do, and a user function only below the
depth limit, one level deeper. -/
theorem call_alike (hkeep : KeepsLevel fr.invoke) {pos : Nat}
    {name : String} {args : List Nat}
    (hchild : ∀ a ∈ args, Alike fr (Workspace.CalleeOf d c) (Workspace.AtLevel d c) (child a)) :
    Alike fr (Workspace.CalleeOf d c) (Workspace.AtLevel d c) (call child pos name args) := by
  have F : CallClosed fr (Alike fr (Workspace.CalleeOf d c) (Workspace.AtLevel d c)) :=
    Alike.callClosed (Workspace.AtLevel.dataBlind d c)
  have hfun : ∀ g : Workspace → FunctionTable, Alike fr (Workspace.CalleeOf d c) (Workspace.AtLevel d c)
      (modifyWorkspace fun ws => { ws with functions := g ws }) :=
    fun _ => Alike.modifyWorkspace fun _ h => Workspace.AtLevel.functions h _
  unfold call
  refine Alike.workspace_bind fun m hm => (?_ : Alike fr _ _ _) m hm
  split
  · exact F.bind (F.mapM _ hchild) fun _ => F.compute _ _
  · split
    · exact F.fail _
    · dsimp only
      split
      · exact F.fail _
      · rename_i hlimit
        -- the depth check passed: the body runs below the limit
        have hd : d < c.maxDepth := by
          rw [← hm.1, ← hm.2]
          omega
        split
        · exact F.fail _
        · refine F.bind (hfun _) fun _ => F.bind (invoke_alike hd hkeep hchild) fun r => ?_
          refine F.bind (hfun _) fun _ => ?_
          split
          · exact F.throw _
          · exact F.compute _ _

/-- Every position runs alike: its calls run bodies only one level deeper, below the limit. -/
theorem evalNode_alike (hkeep : KeepsLevel fr.invoke) (pos : Nat) :
    Alike fr (Workspace.CalleeOf d c) (Workspace.AtLevel d c) (evalNode pos) :=
  evalNode_keeps (Alike.callClosed (Workspace.AtLevel.dataBlind d c)).toWalkBlind pos
    (fun _ _ _ _ _ hn hchild => call_alike hkeep fun a ha =>
      hchild a (Forest.Below.kid hn (by simpa [Node.kids] using ha)))
    pos (Forest.Below.refl _ _)

end Walk

namespace Run

open EvalM

variable {fr : Frame} {d : Nat} {c : Config}

/-- The store reads nothing of the frame. -/
theorem store_blind (place : Place) (op : AssignOp) (r : Operand) (target : DeclaredType) (inv)
    (m : Machine) :
    (store place op r target).exec { fr with invoke := inv } m = (store place op r target).exec fr m := by
  simp only [store, takeMachine, exec_bind, exec_modifyGet]
  split
  simp only [exec_bind, exec_set, exec_lift]

/-- A statement's walk runs alike at its level. -/
theorem walk_alike (hkeep : KeepsLevel fr.invoke) (s : Statement)
    (wantValue : Bool) :
    Alike fr (Workspace.CalleeOf d c) (Workspace.AtLevel d c) (walk s wantValue) :=
  walk_keeps (Alike.callClosed (Workspace.AtLevel.dataBlind d c)).toWalkBlind
    (Walk.evalNode_alike hkeep)
    (fun place op r target m hm =>
      ⟨(Workspace.AtLevel.dataBlind d c).of_dataOnly hm (store_dataOnly place op r target _ m),
        fun inv _ => store_blind place op r target inv m⟩)
    s wantValue

/-- **Two ways of running bodies that agree one level deeper, below the limit, run a statement
alike**, once the first keeps the configuration. -/
theorem statementWith_congr
    {inv₁ inv₂ : Workspace → UserFunction → Workspace × UserFunction × Except EvalError Value}
    (hkeep : KeepsLevel inv₁) (wantValue : Bool) (ws : Workspace)
    (r : Runnable) (hagree : ∀ w fn, w.CalleeOf ws.depth ws.config → inv₂ w fn = inv₁ w fn) :
    statementWith inv₂ wantValue ws r = statementWith inv₁ wantValue ws r := by
  have hwalk : Alike ⟨r.stmt.forest, r.stmt.declared, inv₁⟩ (Workspace.CalleeOf ws.depth ws.config)
      (Workspace.AtLevel ws.depth ws.config) (walk r.stmt wantValue) :=
    walk_alike hkeep r.stmt wantValue
  have hrun : (walk r.stmt wantValue).exec ⟨r.stmt.forest, r.stmt.declared, inv₂⟩
        ⟨ws, r.cells.validate ⟨ws.dataset.nobs, ws.dataset.epoch, ws.vars.epoch⟩⟩ =
      (walk r.stmt wantValue).exec ⟨r.stmt.forest, r.stmt.declared, inv₁⟩
        ⟨ws, r.cells.validate ⟨ws.dataset.nobs, ws.dataset.epoch, ws.vars.epoch⟩⟩ :=
    (hwalk ⟨ws, r.cells.validate ⟨ws.dataset.nobs, ws.dataset.epoch, ws.vars.epoch⟩⟩ ⟨rfl, rfl⟩).2
      inv₂ hagree
  unfold statementWith
  dsimp only
  simp only [EvalM.run_eq_exec]
  rw [hrun]

/-- Two ways of running statements that agree wherever the first keeps `Q` run a body alike. -/
theorem bodyRun_congr {Q : Workspace → Prop}
    {run₁ run₂ : Bool → Workspace → Runnable → Workspace × Runnable × Except EvalError Value}
    (hrun : ∀ b ws r, Q ws → Q (run₁ b ws r).1) (heq : ∀ b ws r, Q ws → run₂ b ws r = run₁ b ws r) :
    ∀ (ws : Workspace) (rs : List Runnable), Q ws → bodyRun run₂ ws rs = bodyRun run₁ ws rs
  | _, [], _ => rfl
  | ws, r :: rest, h => by
    have hnext := hrun false ws r h
    simp only [bodyRun, heq false ws r h]
    split
    · rfl
    · rw [bodyRun_congr hrun heq _ rest hnext]

theorem bodyWith_congr {Q : Workspace → Prop}
    {run₁ run₂ : Bool → Workspace → Runnable → Workspace × Runnable × Except EvalError Value}
    (hrun : ∀ b ws r, Q ws → Q (run₁ b ws r).1) (heq : ∀ b ws r, Q ws → run₂ b ws r = run₁ b ws r)
    (ws : Workspace) (fn : UserFunction) (h : Q ws) : bodyWith run₂ ws fn = bodyWith run₁ ws fn := by
  have hbody := bodyRun_stays hrun ws fn.body h
  unfold bodyWith
  rw [bodyRun_congr hrun heq ws fn.body h]
  split
  · rfl
  · rename_i ws' body hres
    rw [hres] at hbody
    split
    · rfl
    · dsimp only
      rw [heq true ws' _ hbody]

/-- **One more level of fuel changes nothing** once the fuel covers the levels left to the depth
limit: the bodies run one level deeper, with a fuel that still covers the levels left there. -/
theorem statementAt_succ : ∀ (fuel : Nat) (wantValue : Bool) (ws : Workspace) (r : Runnable),
    ws.config.maxDepth ≤ fuel + ws.depth →
      statementAt (fuel + 1) wantValue ws r = statementAt fuel wantValue ws r
  | 0, b, ws, r, h =>
    -- at the limit, no call reaches a body
    statementWith_congr (fun _ _ => ⟨rfl, rfl⟩) b ws r fun _ _ hw => absurd hw.2 (by omega)
  | fuel + 1, b, ws, r, h =>
    statementWith_congr (keepsLevel_bodyWith fuel) b ws r fun w fn hw =>
      bodyWith_congr (Q := Workspace.AtLevel (ws.depth + 1) ws.config)
        (fun b' v r' hv => by
          obtain ⟨hdepth, hconfig⟩ := hv
          rw [← hdepth, ← hconfig]
          exact statementAt_level fuel b' v r')
        (fun b' v r' hv => statementAt_succ fuel b' v r' (by rw [hv.1, hv.2]; omega))
        w fn hw.1

theorem statementAt_add (wantValue : Bool) (ws : Workspace) (r : Runnable) {fuel : Nat}
    (h : ws.config.maxDepth ≤ fuel + ws.depth) :
    ∀ k, statementAt (fuel + k) wantValue ws r = statementAt fuel wantValue ws r
  | 0 => rfl
  | k + 1 => (statementAt_succ (fuel + k) wantValue ws r (by omega)).trans (statementAt_add _ _ _ h k)

/-- **Fuel never decides a run**: any two fuels that cover the call levels left to the depth
limit give the same run. -/
theorem statementAt_fuel_irrelevant (wantValue : Bool) (ws : Workspace) (r : Runnable) {n k : Nat}
    (hn : ws.config.maxDepth ≤ n + ws.depth) (hk : ws.config.maxDepth ≤ k + ws.depth) :
    statementAt n wantValue ws r = statementAt k wantValue ws r := by
  rcases Nat.le_total n k with hle | hle
  · obtain ⟨j, rfl⟩ := Nat.exists_eq_add_of_le hle
    exact (statementAt_add wantValue ws r hn j).symm
  · obtain ⟨j, rfl⟩ := Nat.exists_eq_add_of_le hle
    exact statementAt_add wantValue ws r hk j

end Run

namespace Runnable

/-- **Evaluating a statement is its run with any fuel that covers the call levels left** to the
depth limit: the fuel evaluation starts with never cuts a run short, whatever the statement and
the user functions it calls, recursive ones included. -/
theorem evaluate_eq_statementAt (ws : Workspace) (r : Runnable) {n : Nat}
    (hn : ws.config.maxDepth ≤ n + ws.depth) : r.evaluate ws = Run.statementAt n true ws r :=
  Run.statementAt_fuel_irrelevant true ws r (by omega) hn

/-- `f()` returning `f()`: a function that calls itself without end. -/
def selfCall : UserFunction :=
  { name := "f"
    returns := some (.any, { stmt := { forest := { nodes := #[.call 0 ⟨0, 0⟩], names := #["f"] }
                                       rhs := some 0 } }) }

/-- A workspace with `selfCall` defined, where calls nest at most two deep. -/
def selfCallWs : Workspace :=
  { dataset := Dataset.create 0
    functions := ({} : FunctionTable).define selfCall
    config := { maxDepth := 2 } }

/-- The statement `f()`. -/
def selfCallStmt : Runnable :=
  { stmt := { forest := { nodes := #[.call 0 ⟨0, 0⟩], names := #["f"] }, rhs := some 0 } }

theorem evaluate_selfCall_at_two_levels :
    selfCallWs.config.maxDepth ≤ 2 + selfCallWs.depth ∧
      selfCallStmt.evaluate selfCallWs = Run.statementAt 2 true selfCallWs selfCallStmt :=
  ⟨by decide, evaluate_eq_statementAt selfCallWs selfCallStmt (by decide)⟩

end Runnable

end SeriesCalc
