import SeriesCalc.Eval.Run
import SeriesCalc.Proofs.Walk.Effects
import SeriesCalc.Proofs.Write

/-!
# What a failed statement leaves behind

A statement evaluates its right-hand side, resolves its target and writes; the warning policy is
applied last, once the write is done. So a statement that fails in its walk leaves the variables
and the dataset as they were (up to the dataset's modified flag, which reaching a series for
writing sets), while under the failing warning policy a statement whose walk succeeded fails
after its write.

* `Statement.NoUserCall s ws`: no call in the target or the right-hand side of `s` runs a user
  function of `ws`.
* `Workspace.KeptFrom ws₀ ws`: `ws` has the data of `ws₀` and the same function table and library,
  so it runs the same calls.
* `Run.walk_failsIn`: a walk that fails keeps the data: the right-hand side and the target's
  subscripts keep it whatever they return (`evalNode_stays`), and a failed write keeps it
  (`Assign.write_failsKept`).
* **`Runnable.evaluate_failure_keeps_data`**: a failed statement with no user call keeps the data,
  unless its error is the bare warning error of the failing policy.
-/

namespace SeriesCalc

/-- No call in the target or the right-hand side of `s` runs a user function of `ws`. -/
def Statement.NoUserCall (s : Statement) (ws : Workspace) : Prop :=
  (∀ root ∈ s.lhs, s.forest.NoUserCall ws root) ∧ ∀ root ∈ s.rhs, s.forest.NoUserCall ws root

/-- Without user functions no call runs one. -/
theorem Statement.noUserCall_of_functions {s : Statement} {ws : Workspace}
    (h : ws.functions.entries = []) : s.NoUserCall ws := by
  have none : ∀ root, s.forest.NoUserCall ws root := fun _ _ _ _ _ _ hcall => by
    simp [Workspace.CallsUser, FunctionTable.find?, h] at hcall
  exact ⟨fun root _ => none root, fun root _ => none root⟩

/-- Whether a call runs a user function depends on the function table and the library only. -/
theorem Forest.NoUserCall.congr {f : Forest} {ws ws' : Workspace} {root : Nat}
    (hfun : ws'.functions = ws.functions) (hlib : ws'.library = ws.library)
    (h : f.NoUserCall ws root) : f.NoUserCall ws' root := by
  intro p hp fn args hn hcall
  unfold Workspace.CallsUser at hcall
  rw [hfun, hlib] at hcall
  exact h p hp fn args hn hcall

/-- `ws` holds the data of `ws₀`, and the same function table and library. -/
def Workspace.KeptFrom (ws₀ ws : Workspace) : Prop :=
  ws₀.DataKept ws ∧ ws.functions = ws₀.functions ∧ ws.library = ws₀.library

namespace Workspace.KeptFrom

theorem refl (ws : Workspace) : ws.KeptFrom ws := ⟨.refl ws, rfl, rfl⟩

theorem logBlind (ws₀ : Workspace) : EvalM.LogBlind ws₀.KeptFrom := by
  intro ws l ⟨hd, hf, hl⟩
  exact ⟨hd.trans (.log ws l), hf, hl⟩

theorem noUserCall {ws₀ ws : Workspace} {f : Forest} {root : Nat} (h : ws₀.KeptFrom ws)
    (hcalls : f.NoUserCall ws₀ root) : f.NoUserCall ws root :=
  hcalls.congr h.2.1 h.2.2

end Workspace.KeptFrom

namespace Run

open EvalM

variable {fr : Frame} {P : Workspace → Prop}

/-- A position below a root whose subtree makes no user call. -/
theorem evalNode_below_stays (hP : LogBlind P) {root c : Nat}
    (hcalls : ∀ ws, P ws → fr.forest.NoUserCall ws root) (hc : fr.forest.Below root c) :
    Stays fr P (evalNode c) :=
  evalNode_stays hP c fun ws hws => (hcalls ws hws).below hc

/-- Resolving a target evaluates only the subscripts below it. -/
theorem resolveInto_stays (hP : LogBlind P) :
    ∀ node, (∀ ws, P ws → fr.forest.NoUserCall ws node) → Stays fr P (resolveInto node) := by
  intro node
  induction node using Nat.strongRecOn with
  | ind node ih =>
    intro hcalls
    rw [resolveInto]
    refine Stays.read_bind ?_
    dsimp only
    split
    · -- a name: only lookups
      refine Stays.workspace.bind fun ws => ?_
      split
      · exact Stays.pure _
      · split
        · exact Stays.pure _
        · exact Stays.pure _
    · rename_i base args hn
      split
      · rename_i hlt
        have hbase := ih base hlt fun ws hws => (hcalls ws hws).below (Forest.Below.kid hn (by simp [Node.kids]))
        exact hbase.bind fun _ =>
          (Walk.index_subscripts_keeps (Stays.walkClosed hP).blind hn fun c hc =>
            evalNode_below_stays hP hcalls hc).bind fun _ =>
            Stays.pure _
      · exact Stays.throw _
    · rename_i base key hn
      split
      · rename_i hlt
        have hbase := ih base hlt fun ws hws => (hcalls ws hws).below (Forest.Below.kid hn (by simp [Node.kids]))
        exact hbase.bind fun _ => Stays.pure _
      · exact Stays.throw _
    · exact Stays.fail _

theorem resolvePlace_stays (hP : LogBlind P) {lhs : Nat}
    (hcalls : ∀ ws, P ws → fr.forest.NoUserCall ws lhs) : Stays fr P (resolvePlace lhs) := by
  unfold resolvePlace
  refine Stays.read_bind ((resolveInto_stays hP lhs hcalls).bind fun _ => ?_)
  split
  extract_lets place
  split
  · exact Stays.ite ((Stays.fail _).bind fun _ => Stays.pure _) (Stays.pure _)
  · exact Stays.pure _

theorem rhsOperand_stays (op : AssignOp) (rhs : Option Nat) (donate : Bool) :
    Stays fr P (rhsOperand op rhs donate) := by
  unfold rhsOperand
  split
  · exact Stays.ite (Stays.pure _) (Stays.fail _)
  · extract_lets given
    have hgiven : ∀ taken, Stays fr P (given taken) := by
      intro taken
      dsimp only [given]
      split
      · exact Stays.pure _
      · exact (Stays.operand _).bind fun _ => Stays.pure _
    exact Stays.ite ((Stays.modifyCells _).bind hgiven) ((Stays.pure _).bind hgiven)

theorem assign_failsIn {ws₀ : Workspace} {lhs : Nat} {op : AssignOp} {rhs : Option Nat}
    {donate : Bool} (hcalls : fr.forest.NoUserCall ws₀ lhs) :
    FailsIn fr ws₀.KeptFrom ws₀.DataKept (assign lhs op rhs donate) := by
  unfold assign
  have hP := Workspace.KeptFrom.logBlind ws₀
  refine FailsIn.bind (resolvePlace_stays hP fun ws hws => hws.noUserCall hcalls) (fun _ h => h.1)
    fun place => FailsIn.bind Stays.read (fun _ h => h.1) fun fr' =>
      FailsIn.bind (rhsOperand_stays _ _ _) (fun _ h => h.1) fun r => ?_
  intro m e hm he
  -- the write runs on the workspace of the machine the step starts from
  have hw := Assign.write_failsKept place op r fr'.target m.ws
  simp only [exec_bind, takeMachine, exec_modifyGet] at he ⊢
  unfold WriteM.exec at hw
  generalize StateT.run (ExceptT.run (Assign.write place op r fr'.target)) m.ws = p at he hw ⊢
  obtain ⟨result, ws⟩ := p
  simp only [exec_bind, exec_set, exec_lift] at he ⊢
  exact hm.1.trans (hw e he)

/-- A walk that fails keeps the data: only the write changes it, and a failed write keeps it. -/
theorem walk_failsIn {ws₀ : Workspace} {s : Statement} {wantValue : Bool}
    (hfr : fr.forest = s.forest) (hcalls : s.NoUserCall ws₀) :
    FailsIn fr ws₀.KeptFrom ws₀.DataKept (walk s wantValue) := by
  obtain ⟨hlhs, hrhs⟩ := hcalls
  rw [← hfr] at hlhs hrhs
  have hP := Workspace.KeptFrom.logBlind ws₀
  unfold walk
  refine FailsIn.bind ?_ (fun _ h => h.1) fun rhsId => ?_
  · cases hr : s.rhs with
    | none => exact Stays.pure _
    | some root =>
      rw [Option.mapM_some]
      exact Stays.map _ (evalNode_stays hP root fun ws hws => hws.noUserCall (hrhs root hr))
  split
  · exact (assign_failsIn (hlhs _ ‹_›)).bind_pure _
  · refine FailsIn.of_stays ?_ fun _ h => h.1
    split
    · -- a bare expression gives its value, moved out of its cell or read
      extract_lets given
      have hgiven : ∀ taken, Stays fr ws₀.KeptFrom (given taken) := by
        intro taken
        dsimp only [given]
        split
        · exact Stays.pure _
        · exact (Stays.operand _).bind fun _ => Stays.pure _
      exact Stays.ite (Stays.ite ((Stays.modifyCells _).bind hgiven) ((Stays.pure _).bind hgiven))
        (Stays.pure _)
    · exact Stays.pure _

/-- The warning check fails only under the failing policy, with the bare text of a recorded
warning. -/
theorem checkWarnings_error {ws : Workspace} {e : EvalError} (h : (checkWarnings ws).2 = .error e) :
    (checkWarnings ws).1.config.policy = .fail ∧ ∃ w : Warning, e = (Fault.custom w.text : EvalError) := by
  revert h
  unfold checkWarnings
  split
  · intro h
    cases h
    exact ⟨‹_›, _, rfl⟩
  · intro h
    cases h

theorem statementWith_failure {invoke : Workspace → UserFunction → Workspace × UserFunction × Except EvalError Value}
    {wantValue : Bool} {ws : Workspace} {r : Runnable} {e : EvalError} (hcalls : r.stmt.NoUserCall ws)
    (hfail : (statementWith invoke wantValue ws r).2.2 = .error e) :
    ws.DataKept (statementWith invoke wantValue ws r).1 ∨
      (statementWith invoke wantValue ws r).1.config.policy = .fail ∧
        ∃ w : Warning, e = (Fault.custom w.text : EvalError) := by
  have hwalk : FailsIn ⟨r.stmt.forest, r.stmt.declared, invoke⟩ ws.KeptFrom ws.DataKept
      (walk r.stmt wantValue) :=
    walk_failsIn rfl hcalls
  unfold statementWith at hfail ⊢
  dsimp only at hfail ⊢
  generalize hp : StateT.run (ReaderT.run (walk r.stmt wantValue) _).run _ = p at hfail ⊢
  obtain ⟨result, m⟩ := p
  cases result with
  | error e' =>
    -- the walk failed: its error gets the statement's note
    left
    have hkept := hwalk ⟨ws, r.cells.validate ⟨ws.dataset.nobs, ws.dataset.epoch, ws.vars.epoch⟩⟩ e'
      (.refl ws)
    rw [EvalM.exec, hp] at hkept
    exact hkept rfl
  | ok v =>
    -- the walk succeeded: only the warning check can fail
    right
    dsimp only at hfail ⊢
    have hcheck := @checkWarnings_error m.ws
    generalize checkWarnings m.ws = c at hfail hcheck ⊢
    obtain ⟨ws', checked⟩ := c
    cases checked with
    | ok u => cases hfail
    | error e'' =>
      cases hfail
      exact hcheck rfl

end Run

namespace Runnable

/-- **A failed statement keeps the data.** A statement whose trees call no user function and whose
evaluation fails leaves the variables and the dataset (all but its modified flag) as they were,
unless its error is the bare text of a recorded warning: the failing warning policy raises that
one after the write. -/
theorem evaluate_failure_keeps_data {ws : Workspace} {r : Runnable} {e : EvalError}
    (hcalls : r.stmt.NoUserCall ws) (hfail : (r.evaluate ws).2.2 = .error e) :
    ws.DataKept (r.evaluate ws).1 ∨
      (r.evaluate ws).1.config.policy = .fail ∧ ∃ w : Warning, e = (Fault.custom w.text : EvalError) :=
  Run.statementWith_failure hcalls hfail

/-- An empty workspace under the failing warning policy. -/
def strictWorkspace : Workspace := { dataset := Dataset.create 0, config := { policy := .fail } }

/-- `y = 1 / 0`. -/
def divideByZero : Runnable :=
  { stmt := { forest := { nodes := #[.ident 0, .num 1, .num 0, .binary .div 1 2], names := #["y"] },
              lhs := some 0, rhs := some 3 } }

theorem divideByZero_failure_keeps_data :
    ∃ e, (divideByZero.evaluate strictWorkspace).2.2 = .error e ∧
      (strictWorkspace.DataKept (divideByZero.evaluate strictWorkspace).1 ∨
        (divideByZero.evaluate strictWorkspace).1.config.policy = .fail ∧
          ∃ w : Warning, e = (Fault.custom w.text : EvalError)) := by
  obtain ⟨e, he⟩ : ∃ e, (divideByZero.evaluate strictWorkspace).2.2 = .error e := by
    have hfails : (divideByZero.evaluate strictWorkspace).2.2.toBool = false := by decide +kernel
    cases h : (divideByZero.evaluate strictWorkspace).2.2 with
    | ok v =>
      rw [h] at hfails
      cases hfails
    | error e => exact ⟨e, rfl⟩
  exact ⟨e, he, evaluate_failure_keeps_data (Statement.noUserCall_of_functions rfl) he⟩

/-- Under the failing warning policy, `y = 1 / 0` defines `y` and then fails with the division
warning: a failed statement need not leave the variables as they were. -/
theorem divideByZero_fails_after_write :
    (divideByZero.evaluate strictWorkspace).2.2.toBool = false ∧
      strictWorkspace.vars.lookup "y" = none ∧
      ((divideByZero.evaluate strictWorkspace).1.vars.lookup "y").isSome = true := by
  decide +kernel

/-- Two observations and a numeric series `x`; the dataset is not yet modified. -/
def numericXWs : Workspace :=
  { dataset := { nobs := 2, t2 := 1,
                 series := #[{ name := "const", values := #[1, 1] }, { name := "x", values := #[1, 1] }] } }

/-- `x = "a"`. -/
def stringIntoX : Runnable :=
  { stmt := { forest := { nodes := #[.ident 0, .str 1], names := #["x", "a"] },
              lhs := some 0, rhs := some 1 } }

/-- `x = "a"` on a numeric series reaches `x` for writing, which marks the dataset modified, and
then fails: a failed statement need not keep the dataset's modified flag. -/
theorem stringIntoX_fails_marking_modified :
    (stringIntoX.evaluate numericXWs).2.2.toBool = false ∧ numericXWs.dataset.modified = false ∧
      (stringIntoX.evaluate numericXWs).1.dataset.modified = true := by
  decide +kernel

end Runnable

end SeriesCalc
