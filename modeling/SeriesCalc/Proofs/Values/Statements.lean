import SeriesCalc.Proofs.Values.Walk
import SeriesCalc.Proofs.Values.Writes
import SeriesCalc.Proofs.Calls.Depth

/-!
# Statements store accepted values

A statement evaluates its right-hand side, resolves its target and writes; a function body is a
list of such statements run against the call's locals. Each level of calls runs its bodies
through the level below (`Run.statementAt`), so what a statement keeps is proved once for every
way of running bodies that keeps it, and then for every level by induction on the levels left.

* `Run.RunKeeps c run`: from a workspace and cells whose stored values satisfy `c` throughout,
  `run` ends with such a workspace and cells, and a value it gives satisfies `c` throughout.
* `Run.walk_preserves`: the walk over a statement keeps the stores accepted once the frame's
  bodies do (`InvokeKeeps`).
* `Run.statementWith_keeps`, `Run.bodyWith_keeps`: a run keeps them when its bodies do, and
  bodies run statement by statement keep them when each statement does.
* **`Runnable.evaluate_keeps`**: for a check that evaluation keeps (`Value.Invariant c`), every
  evaluation of a statement, returning or failing, keeps every stored value accepted.
-/

namespace SeriesCalc

namespace Run

open EvalM

variable {c : Value → Bool} (hc : Value.Invariant c)

/-- Running a statement keeps the stores accepted: from a workspace and cells whose stored values
satisfy `c` throughout, it ends with such a workspace and cells, and a value it gives satisfies
`c` throughout. -/
def RunKeeps (c : Value → Bool)
    (run : Bool → Workspace → Runnable → Workspace × Runnable × Except EvalError Value) : Prop :=
  ∀ b ws r, ws.Every c → r.cells.Every c →
    (run b ws r).1.Every c ∧ (run b ws r).2.1.cells.Every c ∧
      ∀ v, (run b ws r).2.2 = .ok v → v.throughout c = true

/-- The store leaves the cells as they were. -/
theorem store_cells (place : Place) (op : AssignOp) (r : Operand) (target : DeclaredType) (fr : Frame)
    (m : Machine) : ((store place op r target).exec fr m).2.cells = m.cells := by
  simp only [store, takeMachine, exec_bind, exec_modifyGet]
  split
  simp only [exec_bind, exec_set, exec_lift]

include hc

/-- An assignment of an accepted value stores accepted values only. -/
theorem store_preserves {fr : Frame} (place : Place) (op : AssignOp) {r : Operand}
    (hr : r.value.throughout c = true) (target : DeclaredType) :
    Preserves c fr (fun _ => True) (store place op r target) := by
  intro m hm
  refine ⟨⟨?_, ?_⟩, fun _ _ => trivial⟩
  · rw [store_ws]
    exact (Assign.write_preserves hc hr place op target m.ws hm.ws).1
  · rw [store_cells]
    exact hm.cells

/-- The right-hand side is moved out of its cell or read from it. -/
theorem rhsOperand_preserves {fr : Frame} (op : AssignOp) (rhs : Option Nat) (donate : Bool) :
    Preserves c fr (fun o => o.value.throughout c = true) (rhsOperand op rhs donate) := by
  unfold rhsOperand
  split
  · split
    · exact Preserves.pure (hc.scalar_throughout _)
    · exact Preserves.fail _
  · dsimp only
    split
    · refine (Preserves.takeOwned hc _).bind fun taken ht => ?_
      split
      · exact Preserves.pure (ht _ rfl)
      · exact (Preserves.operand hc _).bind fun _ ho => Preserves.pure ho
    · simp only [pure_bind]
      exact (Preserves.operand hc _).bind fun _ ho => Preserves.pure ho

variable {fr : Frame} (hinv : InvokeKeeps c fr.invoke)

include hinv

/-- Resolving a target evaluates only the subscripts along it. -/
theorem resolveInto_preserves (node : Nat) : Preserves c fr (fun _ => True) (resolveInto node) := by
  induction node using Nat.strongRecOn with
  | ind node ih =>
    rw [resolveInto]
    refine Preserves.read_bind ?_
    dsimp only
    split
    · refine Preserves.workspace.bind fun ws _ => ?_
      split
      · exact Preserves.pure trivial
      · split
        · exact Preserves.pure trivial
        · exact Preserves.pure trivial
    · split
      · exact (ih _ ‹_›).bind fun _ _ => (Walk.subscripts_preserves hc (evalNode_preserves hc hinv) _).bind
          fun _ _ => Preserves.pure trivial
      · exact Preserves.throw _
    · split
      · exact (ih _ ‹_›).bind fun _ _ => Preserves.pure trivial
      · exact Preserves.throw _
    · exact Preserves.fail _

theorem resolvePlace_preserves (lhs : Nat) : Preserves c fr (fun _ => True) (resolvePlace lhs) := by
  unfold resolvePlace
  refine Preserves.read_bind ((resolveInto_preserves hc hinv lhs).bind fun rs _ => ?_)
  obtain ⟨root, steps⟩ := rs
  dsimp only
  split
  · split
    · exact (Preserves.fail (R := fun _ => True) _).bind fun _ _ => Preserves.pure trivial
    · exact Preserves.pure trivial
  · exact (Preserves.pure (R := fun _ => True) trivial).bind fun _ _ => Preserves.pure trivial

/-- **The walk over a statement keeps the stores accepted** and gives an accepted value, once
the frame's bodies keep them. -/
theorem walk_preserves (s : Statement) (wantValue : Bool) :
    Preserves c fr (fun v => v.throughout c = true) (walk s wantValue) := by
  unfold walk
  refine (Preserves.optionMapM _ fun k _ => evalNode_preserves hc hinv k).bind fun rhsId _ => ?_
  split
  · rw [assign_eq]
    exact ((resolvePlace_preserves hc hinv _).bind fun _ _ => Preserves.read_bind
      ((rhsOperand_preserves hc _ _ _).bind fun _ hr => store_preserves hc _ _ hr _)).bind fun _ _ =>
      Preserves.pure hc.null_throughout
  · split
    · split
      · dsimp only
        split
        · refine (Preserves.takeOwned hc _).bind fun taken ht => ?_
          split
          · exact Preserves.pure (ht _ rfl)
          · exact (Preserves.operand hc _).bind fun _ ho => Preserves.pure ho
        · simp only [pure_bind]
          exact (Preserves.operand hc _).bind fun _ ho => Preserves.pure ho
      · exact Preserves.pure hc.null_throughout
    · exact Preserves.pure hc.null_throughout

omit hc hinv in
/-- Failing a statement with a recorded warning clears only the log. -/
theorem checkWarnings_every {ws : Workspace} (h : ws.Every c) : (checkWarnings ws).1.Every c := by
  unfold checkWarnings
  split
  · exact h.of_eq rfl rfl
  · exact h

omit hinv

/-- **A statement keeps the stores accepted** once the bodies of the functions it calls do:
the cells it validated and kept, or dropped, and the workspace its walk left, checked for
warnings. -/
theorem statementWith_keeps
    {invoke : Workspace → UserFunction → Workspace × UserFunction × Except EvalError Value}
    (hinv : InvokeKeeps c invoke) : RunKeeps c (statementWith invoke) := by
  intro wantValue ws r hws hr
  unfold statementWith
  dsimp only
  simp only [EvalM.run_eq_exec]
  obtain ⟨hm, hv⟩ := @walk_preserves c hc ⟨r.stmt.forest, r.stmt.declared, invoke⟩ hinv r.stmt
    wantValue ⟨ws, r.cells.validate ⟨ws.dataset.nobs, ws.dataset.epoch, ws.vars.epoch⟩⟩
    ⟨hws, hr.validate _⟩
  generalize (walk r.stmt wantValue).exec _ _ = p at hm hv ⊢
  obtain ⟨res, m⟩ := p
  -- a compiled statement keeps its cells after a success, any other run drops them
  have hkeep : ∀ b : Bool, (if b = true then { m.cells with starting := false } else m.cells.clear).Every c := by
    intro b
    split
    · exact fun id cell h => hm.cells id cell h
    · exact CellStore.every_clear _
  cases res with
  | error e =>
    dsimp only at hm ⊢
    exact ⟨hm.ws, hkeep _, fun _ h => by cases h⟩
  | ok v =>
    dsimp only at hm hv ⊢
    split
    · refine ⟨checkWarnings_every hm.ws, hkeep _, fun w h => ?_⟩
      cases h
      exact hv v rfl
    · exact ⟨checkWarnings_every hm.ws, hkeep _, fun _ h => by cases h⟩

omit hc in
/-- Body statements run in turn keep the stores accepted when each statement does, and give back
statements with accepted cells. -/
theorem bodyRun_keeps
    {run : Bool → Workspace → Runnable → Workspace × Runnable × Except EvalError Value}
    (hrun : RunKeeps c run) : ∀ (body : List Runnable) (ws : Workspace), ws.Every c →
      (∀ r ∈ body, r.cells.Every c) →
      (bodyRun run ws body).1.Every c ∧ ∀ r ∈ (bodyRun run ws body).2.1, r.cells.Every c
  | [], ws, hws, _ => ⟨hws, fun _ h => by cases h⟩
  | r :: rest, ws, hws, hbody => by
    have hrest : ∀ r ∈ rest, r.cells.Every c := fun x hx => hbody x (List.mem_cons_of_mem _ hx)
    rw [bodyRun]
    obtain ⟨h1, h2, -⟩ := hrun false ws r hws (hbody r List.mem_cons_self)
    generalize run false ws r = p at h1 h2 ⊢
    obtain ⟨ws', r', res⟩ := p
    dsimp only at h1 h2 ⊢
    split
    · refine ⟨h1, fun x hx => ?_⟩
      rcases List.mem_cons.1 hx with rfl | hx
      · exact h2
      · exact hrest x hx
    · obtain ⟨h3, h4⟩ := bodyRun_keeps hrun rest ws' h1 hrest
      generalize bodyRun run ws' rest = q at h3 h4 ⊢
      obtain ⟨ws'', rest', res'⟩ := q
      refine ⟨h3, fun x hx => ?_⟩
      rcases List.mem_cons.1 hx with rfl | hx
      · exact h2
      · exact h4 x hx

/-- A function body run statement by statement, then its return statement converted to the
declared type, keeps the stores accepted when each statement does. -/
theorem bodyWith_keeps
    {run : Bool → Workspace → Runnable → Workspace × Runnable × Except EvalError Value}
    (hrun : RunKeeps c run) : InvokeKeeps c (bodyWith run) := by
  intro ws fn hws hfn
  unfold bodyWith
  obtain ⟨h1, h2⟩ := bodyRun_keeps hrun fn.body ws hws hfn.1
  generalize bodyRun run ws fn.body = p at h1 h2 ⊢
  obtain ⟨ws', body, res⟩ := p
  cases res with
  | error e => exact ⟨h1, ⟨h2, hfn.2⟩, fun _ h => by cases h⟩
  | ok u =>
    dsimp only
    split
    · exact ⟨h1, ⟨h2, hfn.2⟩, fun _ h => by
        cases h
        exact hc.null_throughout⟩
    · rename_i t r hret
      obtain ⟨h3, h4, h5⟩ := hrun true ws' r h1 (hfn.2 t r hret)
      generalize run true ws' r = q at h3 h4 h5 ⊢
      obtain ⟨ws'', r', res'⟩ := q
      -- the copy holds the body's statements and the return statement as they ended
      have hfn' : UserFunction.Every c { fn with body, returns := some (t, r') } :=
        ⟨h2, fun _ _ h => by
          cases h
          exact h4⟩
      cases res' with
      | error e => exact ⟨h3, hfn', fun _ h => by cases h⟩
      | ok v => exact ⟨h3, hfn', fun _ h => hc.convert_throughout (h5 _ rfl) h⟩

/-- **Every level of calls keeps the stores accepted**, by induction on the levels left: the last
level refuses every call, and each level runs its bodies through the one below. -/
theorem statementAt_keeps : ∀ fuel, RunKeeps c (statementAt fuel)
  | 0 => statementWith_keeps hc fun ws fn hws hfn => ⟨hws, hfn, fun _ h => by cases h⟩
  | fuel + 1 => statementWith_keeps hc (bodyWith_keeps hc (statementAt_keeps fuel))

end Run

namespace Runnable

/-- **Evaluating a statement keeps every stored value accepted**, for every check that evaluation
keeps: from a workspace whose variables and compiled function copies, and a statement whose
cells, hold accepted values only, every evaluation, returning or failing, leaves such a
workspace and statement, and the value it gives is accepted. -/
theorem evaluate_keeps {c : Value → Bool} (hc : Value.Invariant c) {ws : Workspace} {r : Runnable}
    (hws : ws.Every c) (hr : r.cells.Every c) :
    (r.evaluate ws).1.Every c ∧ (r.evaluate ws).2.1.cells.Every c ∧
      ∀ v, (r.evaluate ws).2.2 = .ok v → v.throughout c = true :=
  Run.statementAt_keeps hc _ true ws r hws hr

end Runnable

end SeriesCalc
