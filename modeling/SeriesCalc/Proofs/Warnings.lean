import SeriesCalc.Eval.Run
import SeriesCalc.Proofs.Exec
import SeriesCalc.Proofs.Calls.Fuel

/-!
# Which statement a warning fails

Under the failing policy a statement that has recorded a numeric warning fails once its walk
is over (`checkWarnings`). The log belongs to the workspace, not to the statement: a function's
body runs against the workspace of the call, so its statements start with the warnings the
calling statement recorded before the call.

* `statementWith_result`: a run answers what its walk returns, checked for warnings, or the
  walk's failure with the statement's note.
* `fails_with_warning_iff`: a run fails with a bare text exactly when its walk returns under the
  failing policy and leaves a warning at the head of the log; the text is that warning's.
* **`silent_statement_fails_on_inherited_warning`**: a statement whose walk returns and records
  nothing, leaving the log as it found it, fails exactly when the policy is the failing one and
  the log it started with was not empty, with the first warning of that log. A function body's
  `return 0` is such a statement when the call's arguments recorded a warning.
-/

namespace SeriesCalc

namespace Run

open EvalM

/-- The walk of a statement's run: what it returns and the machine it leaves, before the cells
are kept or dropped and the warnings checked. -/
def walkOf (invoke : Workspace → UserFunction → Workspace × UserFunction × Except EvalError Value)
    (wantValue : Bool) (ws : Workspace) (r : Runnable) : Except EvalError Value × Machine :=
  (walk r.stmt wantValue).exec ⟨r.stmt.forest, r.stmt.declared, invoke⟩
    ⟨ws, r.cells.validate ⟨ws.dataset.nobs, ws.dataset.epoch, ws.vars.epoch⟩⟩

/-- Under the failing policy the first warning in the log fails the statement and empties the
log; otherwise the check passes and changes nothing. -/
theorem checkWarnings_eq (ws : Workspace) :
    checkWarnings ws = match ws.config.policy, ws.warnings.entries with
      | .fail, (w, _) :: _ => ({ ws with warnings := {} }, .error (Fault.custom w.text : EvalError))
      | _, _ => (ws, .ok ()) := rfl

/-- What a run answers, from its walk: a failed walk fails the statement with a note, and a
walk that returns is checked for warnings. -/
theorem statementWith_result (invoke : Workspace → UserFunction → Workspace × UserFunction × Except EvalError Value)
    (wantValue : Bool) (ws : Workspace) (r : Runnable) :
    (statementWith invoke wantValue ws r).2.2 = match (walkOf invoke wantValue ws r).1 with
      | .error e => .error (e.withNote ("in statement: " ++ r.stmt.text))
      | .ok v => ((checkWarnings (walkOf invoke wantValue ws r).2.ws).2).map fun _ => v := by
  unfold statementWith walkOf
  dsimp only
  simp only [EvalM.run_eq_exec]
  generalize (walk r.stmt wantValue).exec _ _ = p
  obtain ⟨res, m⟩ := p
  cases res with
  | error e => rfl
  | ok v =>
    dsimp only
    obtain ⟨ws', checked⟩ := checkWarnings m.ws
    cases checked <;> rfl

/-- A failed walk's error carries the statement's note, so it is never a bare text. -/
theorem withNote_ne_custom (e : EvalError) (note text : String) :
    e.withNote note ≠ (Fault.custom text : EvalError) := by
  intro h
  have := congrArg EvalError.notes h
  simp [EvalError.withNote] at this

/-- **A statement fails because of a warning exactly when its walk leaves one in the log.**
A run fails with a bare text, with no note, exactly when its walk returns under the failing
policy and leaves a warning at the head of the log; the text is that warning's. The log the walk
leaves holds what was in it when the statement started: nothing at the start of a step, but
for a statement of a function's body, the warnings that the calling statement recorded before
the call. -/
theorem fails_with_warning_iff (invoke : Workspace → UserFunction → Workspace × UserFunction × Except EvalError Value)
    (wantValue : Bool) (ws : Workspace) (r : Runnable) (text : String) :
    (statementWith invoke wantValue ws r).2.2 = .error (Fault.custom text : EvalError) ↔
      ∃ v w n rest, (walkOf invoke wantValue ws r).1 = .ok v ∧
        (walkOf invoke wantValue ws r).2.ws.config.policy = .fail ∧
        (walkOf invoke wantValue ws r).2.ws.warnings.entries = (w, n) :: rest ∧ text = w.text := by
  rw [statementWith_result]
  generalize walkOf invoke wantValue ws r = p
  obtain ⟨res, m⟩ := p
  cases res with
  | error e =>
    simp only [Except.error.injEq, reduceCtorEq, false_and, exists_false, iff_false]
    exact withNote_ne_custom e _ text
  | ok v =>
    rw [checkWarnings_eq]
    dsimp only
    split
    · -- the first warning of the log fails the statement
      rename_i w n rest hpol hlog
      simp only [Except.map, Except.error.injEq, EvalError.mk.injEq, Fault.custom.injEq, and_true,
        Except.ok.injEq, hpol, hlog, List.cons.injEq, Prod.mk.injEq, true_and]
      constructor
      · rintro rfl
        exact ⟨v, w, n, rest, rfl, ⟨⟨rfl, rfl⟩, rfl⟩, rfl⟩
      · rintro ⟨_, w', _, _, _, ⟨⟨rfl, -⟩, -⟩, rfl⟩
        rfl
    · -- no failing policy, or an empty log: the statement returns
      rename_i hnone
      simp only [Except.map, reduceCtorEq, false_iff, not_exists, not_and]
      intro _ w n rest _ hpol hlog _
      exact hnone w n rest hpol hlog

/-- The bare number `x` as a statement. -/
def numberStatement (x : Float) : Statement := { forest := { nodes := #[.num x] }, rhs := some 0 }

/-- A bare number returns itself and leaves the workspace, its warnings included, as it was. -/
theorem walkOf_number (invoke : Workspace → UserFunction → Workspace × UserFunction × Except EvalError Value)
    (ws : Workspace) (x : Float) :
    (walkOf invoke true ws ⟨numberStatement x, {}⟩).1 = .ok (.scalar x) ∧
      (walkOf invoke true ws ⟨numberStatement x, {}⟩).2.ws = ws := by
  have hnode : ∀ fr m, (evalNode 0).exec fr m =
      (Walk.step (fun c => if c < 0 then evalNode c else throw Walk.malformed) 0).exec fr m := by
    intro fr m
    rw [evalNode]
  simp only [walkOf, walk, numberStatement, Option.mapM_some, map_eq_pure_bind, exec_bind, hnode]
  exact ⟨rfl, rfl⟩

/-- The walk of a statement keeps the configuration once the bodies it calls do. -/
theorem walkOf_config
    {invoke : Workspace → UserFunction → Workspace × UserFunction × Except EvalError Value}
    (hkeep : ∀ ws fn, (invoke ws fn).1.config = ws.config) (wantValue : Bool) (ws : Workspace)
    (r : Runnable) : (walkOf invoke wantValue ws r).2.ws.config = ws.config :=
  walk_stays (P := fun v => v.config = ws.config) (fun _ _ _ _ h => h) (fun _ _ h => h)
    (fun _ _ fn h => (hkeep _ fn).trans h) wantValue r _ rfl

/-- **A statement is charged with warnings it did not record.** A statement whose walk returns
and records nothing, leaving the log as it found it, fails with a bare text exactly when the
policy is the failing one and the log it started with was not empty; the text is the first
warning of that log. This holds in every run whose bodies keep the configuration, as all runs
of statements do. -/
theorem silent_statement_fails_on_inherited_warning
    (invoke : Workspace → UserFunction → Workspace × UserFunction × Except EvalError Value)
    (hkeep : ∀ ws fn, (invoke ws fn).1.config = ws.config) (wantValue : Bool) (ws : Workspace)
    (r : Runnable) (v : Value) (hwalk : (walkOf invoke wantValue ws r).1 = .ok v)
    (hsilent : (walkOf invoke wantValue ws r).2.ws.warnings = ws.warnings) (text : String) :
    (statementWith invoke wantValue ws r).2.2 = .error (Fault.custom text : EvalError) ↔
      ws.config.policy = .fail ∧ ∃ w n rest, ws.warnings.entries = (w, n) :: rest ∧ text = w.text := by
  have hconfig := walkOf_config hkeep wantValue ws r
  rw [fails_with_warning_iff, hconfig, hsilent]
  constructor
  · rintro ⟨_, w, n, rest, -, hpol, hlog, htext⟩
    exact ⟨hpol, w, n, rest, hlog, htext⟩
  · rintro ⟨hpol, w, n, rest, hlog, htext⟩
    exact ⟨v, w, n, rest, hwalk, hpol, hlog, htext⟩

/-- A workspace under the failing policy whose log already holds a division by zero, as a
function's body finds it when the call's argument divided by zero. -/
def warnedWs : Workspace :=
  { dataset := Dataset.create 0, config := { policy := .fail },
    warnings := { entries := [(.divisionByZero, 1)] } }

/-- `return 0` in a body called with a warning in the log fails with that warning's text. -/
theorem return_zero_fails_on_caller_warning :
    (statementWith (bodyWith (statementAt 0)) true warnedWs ⟨numberStatement 0, {}⟩).2.2 =
      .error (Fault.custom Warning.divisionByZero.text : EvalError) :=
  (silent_statement_fails_on_inherited_warning (bodyWith (statementAt 0))
      (bodyWith_keeps_field Workspace.config (statementAt_config 0)) true warnedWs
      ⟨numberStatement 0, {}⟩ (.scalar 0) (walkOf_number _ warnedWs 0).1
      (congrArg Workspace.warnings (walkOf_number _ warnedWs 0).2) _).mpr
    ⟨rfl, _, _, _, rfl, rfl⟩

end Run

end SeriesCalc
