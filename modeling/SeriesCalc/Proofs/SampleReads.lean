import SeriesCalc.Eval.Run
import SeriesCalc.Proofs.Exec
import SeriesCalc.Proofs.FailedStatement
import SeriesCalc.Proofs.Vars
import SeriesCalc.Proofs.Dataset.WellFormed

/-!
# Reading a series over the sample

An operator on a series reads it observation by observation over the sample `t1..t2` of the
dataset. Resizing gives every series of the dataset one value per observation
(`Dataset.resize_fits`), but a series held in a variable keeps the length it had when it was stored.
A unary operator over such a variable reads past its end and stops everything.

* `sampleStored_eq`: the read of a series over the sample stops exactly when the dataset has
  observations and the series holds no value at `t2`; the stop names the series' length and
  the first observation it lacks.
* `evaluate_unaryOn`: what evaluating `op x` gives, for every workspace in which `x` holds a
  series.
* **`unary_var_overrun_iff`**: evaluating `op x` stops at the end of `x` exactly when the
  sample runs past it.
-/

namespace SeriesCalc

/-! ## The dataset side -/

/-- Reading a series over the sample stops exactly when the dataset has observations and the
series holds no value at the sample's last one. -/
theorem sampleStored_eq (ds : Dataset) (xs : Array Float) :
    sampleStored ds xs = if ds.nobs ≠ 0 ∧ xs.size ≤ ds.t2
      then .error (Fault.overrun ⟨xs.size, max ds.t1 xs.size⟩) else .ok () := by
  unfold sampleStored
  by_cases hn : ds.nobs = 0
  · simp [hn]
  · by_cases hs : ds.t2 < xs.size
    · simp [hn, hs]
    · simp [hn, hs, Nat.le_of_not_lt hs]

/-! ## A unary operator over a variable -/

/-- The tree of `op x`: the name at position 0, the operator at 1. -/
def Forest.unaryOn (u : UnaryOp) (x : String) : Forest :=
  { nodes := #[.ident 0, .unary u 0], names := #[x] }

/-- The statement `op x`, fresh. -/
def Runnable.unaryOn (u : UnaryOp) (x : String) : Runnable :=
  { stmt := { forest := Forest.unaryOn u x, rhs := some 1 } }

theorem Forest.unaryOn_node_one (u : UnaryOp) (x : String) :
    (Forest.unaryOn u x).node? 1 = some (.unary u 0) := rfl

theorem except_ok_bind {ε α β : Type} (a : α) (f : α → Except ε β) : (Except.ok a >>= f) = f a :=
  rfl

theorem OpM.lift_pure {α : Type} (a : α) : OpM.lift (pure a : Except EvalError α) = pure a := rfl

/-- A unary operator other than the transpose on a series: it stops where the sample read does,
and otherwise writes the mapped series. -/
theorem Numeric.unary_series (env : OpEnv) {u : UnaryOp} (hu : u ≠ .transpose) (xs : Array Float)
    (s : Scratch) :
    (Numeric.unary env u { value := .series xs }).run.run s = match sampleStored env.ds xs with
      | .ok () =>
        (.ok (), { s with cell := .series (fillSeriesPure env.ds fun t => unaryMap u (xs.getD t NA)) })
      | .error f => (.error (f : EvalError), s) := by
  cases u with
  | transpose => exact absurd rfl hu
  | _ =>
    simp only [Numeric.unary, OpM.liftFault]
    cases sampleStored env.ds xs <;> rfl

namespace EvalM

open Walk

variable {ws : Workspace} {u : UnaryOp} {x : String} {vid : Nat} {xs : Array Float}

/-- The name binds its position to the variable's slot. -/
theorem evalNode_unaryOn_name (c : CellStore) (t : DeclaredType)
    (inv : Workspace → UserFunction → Workspace × UserFunction × Except EvalError Value)
    (hx : ws.vars.lookup x = some vid) (hv : ws.vars.get? vid = some (.series xs)) :
    (evalNode 0).exec ⟨Forest.unaryOn u x, t, inv⟩ ⟨ws, c⟩ =
      (.ok (c.bind 0 (.var vid) .series .leaf).2, ⟨ws, (c.bind 0 (.var vid) .series .leaf).1⟩) := by
  rw [evalNode]
  simp only [step, Forest.node?, Forest.name, Array.getD_eq_getD_getElem?, ident, bindCell,
    Nat.not_lt_zero, ↓reduceIte, Forest.unaryOn, exec_bind, exec_read, List.size_toArray,
    List.length_cons, List.length_nil, Nat.zero_add, Nat.zero_lt_succ, getElem?_pos,
    List.getElem_toArray, List.getElem_cons_zero, Option.getD_some, exec_workspace, hx, hv,
    Option.map_some, exec_modifyCells, Prod.mk.injEq, Except.ok.injEq, Machine.mk.injEq, true_and]
  exact ⟨rfl, rfl⟩

/-- The operator, from fresh cells: it returns its own cell or the stop of the sample read, and
leaves the workspace as it was; when it returns, its cell owns the mapped series. -/
theorem evalNode_unaryOn (hu : u ≠ .transpose) (st : Stamp) (t : DeclaredType)
    (inv : Workspace → UserFunction → Workspace × UserFunction × Except EvalError Value)
    (hx : ws.vars.lookup x = some vid) (hv : ws.vars.get? vid = some (.series xs)) :
    ∃ c, (evalNode 1).exec ⟨Forest.unaryOn u x, t, inv⟩ ⟨ws, { stamp := some st }⟩ =
        ((Fault.raise (sampleStored ws.dataset xs)).map fun _ => 1, ⟨ws, c⟩) ∧
      (sampleStored ws.dataset xs = .ok () →
        (c.takeOwned 1).2 = some (.series (fillSeriesPure ws.dataset fun t =>
          Numeric.unaryMap u (xs.getD t NA)))) := by
  rw [evalNode]
  simp only [step, Nat.lt_one_iff, exec_bind, exec_read, Forest.unaryOn_node_one, ↓reduceIte,
    evalNode_unaryOn_name _ _ _ hx hv]
  -- the cells are built from fresh ones, so every cell operation computes
  simp only [compute, takeMachine, CellStore.lend, CellStore.cell?, CellStore.writable,
    CellStore.link, Array.getD_eq_getD_getElem?, CellStore.modifyCell, Array.set!_eq_setIfInBounds,
    CellStore.setLink, CellStore.alloc, CellStore.bind, List.size_toArray, List.length_nil,
    Nat.lt_irrefl, not_false_eq_true, getElem?_neg, Option.getD_none, CellStore.unlink, ↓reduceIte,
    Nat.zero_add, Nat.sub_zero, Array.replicate_one, Array.append_singleton, List.push_toArray,
    List.nil_append, List.setIfInBounds_toArray, List.set_cons_zero, List.length_cons,
    Nat.lt_add_one, getElem?_pos, List.getElem_toArray, List.getElem_cons_zero, Option.bind_some,
    exec_bind, exec_read, exec_modifyGet, List.cons_append, Nat.add_one_sub_one, List.set_cons_succ,
    List.getElem_cons_succ]
  simp +decide only [OpM.read, CellStore.read, CellStore.cell?, List.size_toArray,
    List.length_cons, List.length_nil, Nat.zero_add, Nat.zero_lt_succ, getElem?_pos,
    List.getElem_toArray, List.getElem_cons_zero, Option.bind_some, Workspace.resolve, hv,
    Operand.kind, Value.kind, Bool.and_eq_true, true_and, bind_pure_comp, except_ok_bind, ↓reduceIte]
  simp only [OpM.lift_pure, pure_bind, Numeric.unary_series _ hu]
  cases sampleStored ws.dataset xs with
  | ok _ =>
    refine ⟨_, rfl, fun _ => ?_⟩
    simp +decide only [CellStore.takeOwned, CellStore.cell?, CellStore.restore, List.size_toArray,
      List.length_cons, List.length_nil, Nat.zero_add, Nat.lt_add_one, getElem?_pos,
      List.getElem_toArray, List.getElem_cons_succ, List.getElem_cons_zero, Option.bind_some,
      ↓reduceIte, CellStore.modifyCell, Array.getD_eq_getD_getElem?, Array.set!_eq_setIfInBounds,
      List.setIfInBounds_toArray, List.set_cons_succ, List.set_cons_zero, gt_iff_lt]
  | error f => exact ⟨_, rfl, fun h => by cases h⟩

end EvalM

namespace Runnable

open EvalM

variable {ws : Workspace} {u : UnaryOp} {x : String} {vid : Nat} {xs : Array Float}

/-- **Evaluating `op x`.** For every workspace in which `x` holds a series, `op x` either stops
where reading `x` over the sample stops, or gives the mapped series (unless a warning recorded
before fails the statement). -/
theorem evaluate_unaryOn (hu : u ≠ .transpose) (hx : ws.vars.lookup x = some vid)
    (hv : ws.vars.get? vid = some (.series xs)) :
    (evaluate ws (unaryOn u x)).2.2 = match sampleStored ws.dataset xs with
      | .error f => .error (({ fault := f } : EvalError).withNote ("in statement: " ++ (unaryOn u x).stmt.text))
      | .ok () => (Run.checkWarnings ws).2.map fun _ =>
          .series (fillSeriesPure ws.dataset fun t => Numeric.unaryMap u (xs.getD t NA)) := by
  simp only [evaluate, Run.statementAt, Run.statementWith]
  rw [EvalM.run_eq_exec]
  obtain ⟨c, hexec, htake⟩ := evalNode_unaryOn hu ⟨ws.dataset.nobs, ws.dataset.epoch, ws.vars.epoch⟩
    .any (Run.bodyWith (Run.statementAt ws.config.maxDepth)) hx hv
  simp only [Run.walk, unaryOn, Option.mapM_some, ↓reduceIte, Bool.not_false, bind_pure_comp,
    bind_map_left, CellStore.validate, exec_bind, hexec, exec_modifyCells, Bool.false_and,
    Bool.false_eq_true, Array.getD_eq_getD_getElem?]
  cases h : sampleStored ws.dataset xs with
  | ok v =>
    cases v
    simp only [Except.map, Fault.raise, htake h, Array.getD_eq_getD_getElem?, exec_pure]
    cases (Run.checkWarnings ws).snd <;> rfl
  | error f => simp only [Except.map, Fault.raise]

/-- **A unary operator reads a series variable past its end.** For every workspace in which `x`
holds a series, evaluating `op x` stops at the end of `x` exactly when the dataset has
observations and `x` holds no value at the sample's last one. -/
theorem unary_var_overrun_iff (hu : u ≠ .transpose) (hx : ws.vars.valueOf? x = some (.series xs)) :
    (∃ e, (evaluate ws (unaryOn u x)).2.2 = .error e ∧
        e.fault = Fault.overrun ⟨xs.size, max ws.dataset.t1 xs.size⟩) ↔
      ws.dataset.nobs ≠ 0 ∧ xs.size ≤ ws.dataset.t2 := by
  obtain ⟨vid, hvid, hv⟩ : ∃ vid, ws.vars.lookup x = some vid ∧ ws.vars.get? vid = some (.series xs) := by
    unfold VarTable.valueOf? at hx
    cases h : ws.vars.lookup x with
    | none => rw [h] at hx; cases hx
    | some vid => rw [h] at hx; exact ⟨vid, rfl, hx⟩
  rw [evaluate_unaryOn hu hvid hv, sampleStored_eq]
  by_cases hpast : ws.dataset.nobs ≠ 0 ∧ xs.size ≤ ws.dataset.t2
  · rw [if_pos hpast]
    exact iff_of_true ⟨_, rfl, rfl⟩ hpast
  · rw [if_neg hpast]
    refine iff_of_false ?_ hpast
    rintro ⟨e, he, hfault⟩
    -- a statement whose operator returned fails only with a warning recorded before it
    cases hc : (Run.checkWarnings ws).2 with
    | ok _ =>
      rw [hc] at he
      cases he
    | error e' =>
      rw [hc] at he
      cases he
      obtain ⟨-, w, rfl⟩ := Run.checkWarnings_error hc
      cases hfault

/-- The workspace of a variable `s` of three values after the dataset grew to five observations. -/
def grownWorkspace : Workspace :=
  { dataset := Dataset.create 5
    vars := ({} : VarTable).push "s" (.series #[1, 2, 3]) (VarTable.lookup_empty "s") }

theorem grown_neg_overruns :
    ∃ e, (evaluate grownWorkspace (unaryOn .neg "s")).2.2 = .error e ∧
      e.fault = Fault.overrun ⟨(#[1, 2, 3] : Array Float).size,
        max grownWorkspace.dataset.t1 (#[1, 2, 3] : Array Float).size⟩ :=
  (unary_var_overrun_iff (by decide) (VarTable.valueOf?_push_self _ (VarTable.lookup_empty "s"))).mpr
    ⟨by decide, by decide⟩

end Runnable

end SeriesCalc
