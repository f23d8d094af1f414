import SeriesCalc.Eval.Run
import SeriesCalc.Proofs.Exec

/-!
# Compiled and one-shot runs

A compiled statement keeps its cells from one run to the next; a one-shot statement drops them
after every run and moves its result out of its cell instead of copying it. The flag itself
changes nothing else: a run from given cells leaves the same workspace and gives the same result
whether the statement is compiled or not (`statementWith_compiled`). Whatever a compiled
statement does differently comes from the cells it kept.

* `walk_compiled`: moving the right-hand side or the value out of its cell, or reading it, is
  the same to the walk.
* **`first_run_matches_fresh_copy`**: the first run of a compiled statement, which starts from no
  cells, leaves the same workspace and gives the same result as a one-shot copy.
-/

namespace SeriesCalc

open EvalM

/-! ## Moving a value out of its cell -/

/-- An owned cell handed over whole reads as its value. -/
theorem CellStore.read_of_takeOwned {s : CellStore} {ws : Workspace} {id : Nat} {v : Value}
    (h : (s.takeOwned id).2 = some v) : s.read ws id = .ok { value := v } := by
  unfold CellStore.takeOwned at h
  unfold CellStore.read
  rcases hc : s.cell? id with _ | c
  · rw [hc] at h
    cases h
  · rw [hc] at h
    dsimp only at h ⊢
    -- only an owned cell that nothing else points to is handed over
    by_cases hr : c.refs > 1
    · rw [if_pos hr] at h
      cases h
    · rw [if_neg hr] at h
      rcases hp : c.payload with w | a
      · rw [hp] at h
        cases h
        rfl
      · rw [hp] at h
        cases h

/-- Nothing to hand over leaves the cells as they were. -/
theorem CellStore.takeOwned_none {s : CellStore} {id : Nat} (h : (s.takeOwned id).2 = none) :
    (s.takeOwned id).1 = s := by
  revert h
  unfold CellStore.takeOwned
  rcases s.cell? id with _ | c
  · exact fun _ => rfl
  · dsimp only
    split
    · exact fun _ => rfl
    · rcases c.payload with v | _
      · intro h
        cases h
      · exact fun _ => rfl

namespace Run

/-! ## One run -/

/-- Moving the right-hand side out of its cell or reading it gives the same operand; either way
the workspace is left alone. -/
theorem rhsOperand_donate (op : AssignOp) (rhs : Option Nat) (fr : Frame) (m : Machine) :
    ((rhsOperand op rhs true).exec fr m).1 = ((rhsOperand op rhs false).exec fr m).1 ∧
      ((rhsOperand op rhs true).exec fr m).2.ws = m.ws ∧
      ((rhsOperand op rhs false).exec fr m).2 = m := by
  unfold rhsOperand
  cases rhs with
  | none =>
    dsimp only
    split <;> exact ⟨rfl, rfl, rfl⟩
  | some id =>
    simp only [exec_bind, exec_modifyCells, exec_pure, ite_true, Bool.false_eq_true, ite_false]
    cases h : (m.cells.takeOwned id).2 with
    | some v => simp only [exec_pure, exec_operand, CellStore.read_of_takeOwned h, and_self]
    | none =>
      simp only [exec_bind, exec_operand, CellStore.takeOwned_none h]
      cases m.cells.read m.ws id <;> exact ⟨rfl, rfl, rfl⟩

/-- The assignment does not depend on whether the right-hand side is moved or read. -/
theorem assign_donate (lhs : Nat) (op : AssignOp) (rhs : Option Nat) (fr : Frame) (m : Machine) :
    ((assign lhs op rhs true).exec fr m).1 = ((assign lhs op rhs false).exec fr m).1 ∧
      ((assign lhs op rhs true).exec fr m).2.ws = ((assign lhs op rhs false).exec fr m).2.ws := by
  unfold assign
  simp only [exec_bind, exec_read]
  cases (resolvePlace lhs).exec fr m with
  | mk res m' =>
    cases res with
    | error e => exact ⟨rfl, rfl⟩
    | ok place =>
      dsimp only
      obtain ⟨hres, hws, hsame⟩ := rhsOperand_donate op rhs fr m'
      rw [hsame, ← hres]
      generalize (rhsOperand op rhs true).exec fr m' = p at hws ⊢
      obtain ⟨r, m₁⟩ := p
      cases r with
      | error e => exact ⟨rfl, hws⟩
      | ok a =>
        simp only [takeMachine, exec_modifyGet]
        rw [hws]
        generalize StateT.run (ExceptT.run (Assign.write place op a fr.target)) m'.ws = q
        obtain ⟨result, ws'⟩ := q
        cases result <;> exact ⟨rfl, rfl⟩

/-- A walk gives the same value and workspace whether the statement is compiled or not. -/
theorem walk_compiled (s : Statement) (w : Bool) (fr : Frame) (m : Machine) :
    ((walk s w).exec fr m).1 = ((walk { s with compiled := false } w).exec fr m).1 ∧
      ((walk s w).exec fr m).2.ws = ((walk { s with compiled := false } w).exec fr m).2.ws := by
  obtain ⟨forest, lhs, op, rhs, declared, compiled⟩ := s
  cases compiled with
  | false => exact ⟨rfl, rfl⟩
  | true =>
    unfold walk
    simp only [exec_bind, Bool.not_true, Bool.not_false]
    generalize (Option.mapM evalNode rhs).exec fr m = p
    obtain ⟨r, m₁⟩ := p
    cases r with
    | error e => exact ⟨rfl, rfl⟩
    | ok a =>
      dsimp only
      cases lhs with
      | some l =>
        obtain ⟨hres, hws⟩ := assign_donate l op a fr m₁
        simp only [exec_bind, exec_pure]
        generalize (assign l op a true).exec fr m₁ = q₁ at hres hws ⊢
        generalize (assign l op a false).exec fr m₁ = q₂ at hres hws ⊢
        obtain ⟨r₁, m₁'⟩ := q₁
        obtain ⟨r₂, m₂'⟩ := q₂
        dsimp only at hres hws ⊢
        subst hres
        cases r₁ <;> exact ⟨rfl, hws.symm⟩
      | none =>
        cases a with
        | none => exact ⟨rfl, rfl⟩
        | some id =>
          cases w with
          | false => exact ⟨rfl, rfl⟩
          | true =>
            simp only [ite_true, Bool.false_eq_true, ite_false, exec_bind, exec_pure,
              exec_modifyCells, exec_operand]
            cases h : (m₁.cells.takeOwned id).2 with
            | some v => simp only [CellStore.read_of_takeOwned h, exec_pure, and_self]
            | none =>
              simp only [CellStore.takeOwned_none h, exec_bind, exec_operand, exec_pure]
              cases m₁.cells.read m₁.ws id <;> exact ⟨trivial, trivial⟩

/-- A run from given cells gives the same workspace and result whether the statement is compiled or
not: only the cells it keeps differ. -/
theorem statementWith_compiled
    (invoke : Workspace → UserFunction → Workspace × UserFunction × Except EvalError Value) (w : Bool)
    (ws : Workspace) (s : Statement) (c : CellStore) :
    (statementWith invoke w ws ⟨s, c⟩).1 =
        (statementWith invoke w ws ⟨{ s with compiled := false }, c⟩).1 ∧
      (statementWith invoke w ws ⟨s, c⟩).2.2 =
        (statementWith invoke w ws ⟨{ s with compiled := false }, c⟩).2.2 := by
  unfold statementWith
  dsimp only
  simp only [show ∀ (x : EvalM Value) fr m, ((x.run fr).run).run m = x.exec fr m from fun _ _ _ => rfl]
  obtain ⟨hres, hws⟩ := walk_compiled s w ⟨s.forest, s.declared, invoke⟩
    ⟨ws, c.validate ⟨ws.dataset.nobs, ws.dataset.epoch, ws.vars.epoch⟩⟩
  generalize (walk s w).exec _ _ = p₁ at hres hws ⊢
  generalize (walk { s with compiled := false } w).exec _ _ = p₂ at hres hws ⊢
  obtain ⟨r₁, m₁⟩ := p₁
  obtain ⟨r₂, m₂⟩ := p₂
  dsimp only at hres hws ⊢
  subst hres
  rw [hws]
  cases r₁ with
  | error e => exact ⟨rfl, rfl⟩
  | ok v =>
    -- both runs then check the same warnings
    dsimp only
    obtain ⟨ws', checked⟩ := checkWarnings m₂.ws
    cases checked <;> exact ⟨rfl, rfl⟩

end Run

namespace Runnable

/-- **A compiled statement's first run agrees with a one-shot run.** -/
theorem first_run_matches_fresh_copy (ws : Workspace) (s : Statement) :
    (evaluate ws ⟨s, {}⟩).1 = (evaluate ws ⟨{ s with compiled := false }, {}⟩).1 ∧
      (evaluate ws ⟨s, {}⟩).2.2 = (evaluate ws ⟨{ s with compiled := false }, {}⟩).2.2 :=
  Run.statementWith_compiled _ true ws s {}

end Runnable

end SeriesCalc
