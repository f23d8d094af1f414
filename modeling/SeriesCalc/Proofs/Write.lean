import SeriesCalc.Eval.Assign

/-!
# What a write leaves behind

A write (`WriteM`) checks its target and its value and then stores the result; the checks come
before every store. So a write that fails leaves the dataset and the variables as they were,
except that a dataset series reached for writing (`writableSeries`) has already marked the
dataset modified. And whatever it does, a write changes only the variables, the dataset and the
warning log.

* `WriteM.Closed K`: a property of write steps that holds of the steps leaving the workspace
  alone, of operating, recording warnings and reaching a series for writing, and that `bind`
  keeps. Computing the new value of a variable, its member or element is built from these
  alone (`Closed.writeInto`), since only the last step of a write stores it.
* `Workspace.DataKept before after`: the variables and the dataset are those of `before`, up to
  the dataset's modified flag. `WriteM.Keeps x`: every run of `x` keeps the data, whatever it
  returns; it is closed (`Keeps.closed`).
* `WriteM.FailsKept x`: a run of `x` that fails keeps the data. A store that cannot fail may
  follow checks that keep the data (`FailsKept.bind`).
* `Assign.write_failsKept`: every assignment that fails keeps the data.
* `Workspace.DataOnly before after`: `after` is `before` with other variables, dataset and log.
  `WriteM.Touches x`: every run of `x` changes only these; it is closed (`Touches.closed`), and
  so is every assignment (`Assign.write_touches`).
-/
namespace SeriesCalc

/-- `after` holds the variables and the dataset of `before`, up to the dataset's modified flag. -/
def Workspace.DataKept (before after : Workspace) : Prop :=
  after.vars = before.vars ∧ { after.dataset with modified := before.dataset.modified } = before.dataset

namespace Workspace.DataKept

theorem refl (ws : Workspace) : ws.DataKept ws := ⟨rfl, rfl⟩

theorem trans {a b c : Workspace} (hab : a.DataKept b) (hbc : b.DataKept c) : a.DataKept c := by
  obtain ⟨hv₁, hd₁⟩ := hab
  obtain ⟨hv₂, hd₂⟩ := hbc
  refine ⟨hv₂.trans hv₁, ?_⟩
  rw [← hd₁, ← hd₂]

/-- A change of the warning log keeps the data. -/
theorem log (ws : Workspace) (l : WarningLog) : ws.DataKept { ws with warnings := l } := ⟨rfl, rfl⟩

/-- Marking the dataset modified keeps the data. -/
theorem modified (ws : Workspace) (b : Bool) :
    ws.DataKept { ws with dataset := { ws.dataset with modified := b } } := ⟨rfl, rfl⟩

end Workspace.DataKept

/-- Run a write from a workspace. -/
def WriteM.exec {α : Type} (x : WriteM α) (ws : Workspace) : Except EvalError α × Workspace :=
  x.run.run ws

namespace WriteM

variable {α β : Type} {ws : Workspace}

@[simp] theorem exec_pure (a : α) : (pure a : WriteM α).exec ws = (.ok a, ws) := rfl

@[simp] theorem exec_throw (e : EvalError) : (throw e : WriteM α).exec ws = (.error e, ws) := rfl

@[simp] theorem exec_get : (get : WriteM Workspace).exec ws = (.ok ws, ws) := rfl

@[simp] theorem exec_set (ws' : Workspace) : (set ws' : WriteM PUnit).exec ws = (.ok ⟨⟩, ws') := rfl

@[simp] theorem exec_modify (f : Workspace → Workspace) :
    (modify f : WriteM PUnit).exec ws = (.ok ⟨⟩, f ws) := rfl

@[simp] theorem exec_fail (f : Fault) : (fail f : WriteM α).exec ws = (.error (f : EvalError), ws) :=
  rfl

theorem exec_lift (r : Except EvalError α) : (lift r).exec ws = (r, ws) := by
  cases r <;> rfl

theorem exec_liftData (r : Except DataError α) :
    (liftData r).exec ws = (r.mapError DataError.toEvalError, ws) := by
  cases r <;> rfl

@[simp] theorem exec_dataset : dataset.exec ws = (.ok ws.dataset, ws) := rfl

theorem exec_bind (x : WriteM α) (f : α → WriteM β) :
    (x >>= f).exec ws = match (x.exec ws).1 with
      | .ok a => (f a).exec (x.exec ws).2
      | .error e => (.error e, (x.exec ws).2) := by
  simp only [exec, ExceptT.run_bind, StateT.run_bind]
  generalize StateT.run x.run ws = p
  obtain ⟨r, ws'⟩ := p
  cases r <;> rfl

/-- `operate` changes only the warning log. -/
theorem operate_ws (target : DeclaredType) (op : OpEnv → OpM Unit) :
    ∃ l, ((operate target op).exec ws).2 = { ws with warnings := l } := by
  simp only [operate, exec_bind, exec_get]
  split
  rename_i r s _
  refine ⟨s.log, ?_⟩
  cases r <;> rfl

/-- `K` holds of every step that leaves the workspace as it is and of operating, recording a
warning and reaching a series for writing, and `bind` keeps it. -/
structure Closed (K : {α : Type} → WriteM α → Prop) : Prop where
  of_ws : ∀ {α : Type} {x : WriteM α}, (∀ ws, (x.exec ws).2 = ws) → K x
  operate : ∀ (target : DeclaredType) (op : OpEnv → OpM Unit), K (operate target op)
  note : ∀ w : Option Warning, K (note w)
  writableSeries : ∀ sid : Nat, K (writableSeries sid)
  bind : ∀ {α β : Type} {x : WriteM α} {f : α → WriteM β}, K x → (∀ a, K (f a)) → K (x >>= f)

namespace Closed

variable {K : {α : Type} → WriteM α → Prop}

protected theorem pure (F : Closed K) (a : α) : K (pure a) := F.of_ws fun _ => rfl

protected theorem throw (F : Closed K) (e : EvalError) : K (throw e : WriteM α) := F.of_ws fun _ => rfl

theorem fail (F : Closed K) (e : Fault) : K (fail e : WriteM α) := F.of_ws fun _ => rfl

theorem lift (F : Closed K) (r : Except EvalError α) : K (lift r) := F.of_ws fun _ => by rw [exec_lift]

theorem liftData (F : Closed K) (r : Except DataError α) : K (liftData r) :=
  F.of_ws fun _ => by rw [exec_liftData]

protected theorem get (F : Closed K) : K (get : WriteM Workspace) := F.of_ws fun _ => rfl

theorem dataset (F : Closed K) : K dataset := F.of_ws fun _ => rfl

protected theorem ite (_ : Closed K) {c : Prop} [Decidable c] {x y : WriteM α} (hx : K x) (hy : K y) :
    K (if c then x else y) := by
  split
  · exact hx
  · exact hy

protected theorem foldlM (F : Closed K) {g : β → α → WriteM β} :
    ∀ (l : List α) (b : β), (∀ b a, K (g b a)) → K (l.foldlM g b)
  | [], _, _ => F.pure _
  | a :: l, b, h => by
    rw [List.foldlM_cons]
    exact F.bind (h b a) fun b' => F.foldlM l b' h

end Closed

/-- Every run of `x` keeps the data, whether it returns or fails. -/
def Keeps (x : WriteM α) : Prop := ∀ ws : Workspace, ws.DataKept (x.exec ws).2

/-- A run of `x` that fails keeps the data. -/
def FailsKept (x : WriteM α) : Prop :=
  ∀ (ws : Workspace) e, (x.exec ws).1 = .error e → ws.DataKept (x.exec ws).2

namespace Keeps

variable {x : WriteM α} {f : α → WriteM β}

theorem of_ws (h : ∀ ws, (x.exec ws).2 = ws) : Keeps x := by
  intro ws
  rw [h ws]
  exact .refl ws

theorem note (w : Option Warning) : Keeps (note w) := by
  intro ws
  cases w
  · exact .refl ws
  · exact .log ws _

theorem operate (target : DeclaredType) (op : OpEnv → OpM Unit) : Keeps (operate target op) := by
  intro ws
  obtain ⟨l, hl⟩ := @operate_ws ws target op
  rw [hl]
  exact .log ws l

/-- Reaching a series for writing marks the dataset modified, and keeps the data. -/
theorem writableSeries (sid : Nat) : Keeps (writableSeries sid) := by
  intro ws
  simp only [WriteM.writableSeries, exec_bind, exec_dataset]
  split
  · exact .refl ws
  · split
    · exact .refl ws
    · exact .modified ws true

protected theorem bind (hx : Keeps x) (hf : ∀ a, Keeps (f a)) : Keeps (x >>= f) := by
  intro ws
  rw [exec_bind]
  cases h : (x.exec ws).1 with
  | ok a => exact (hx ws).trans (hf a _)
  | error e => exact hx ws

theorem closed : Closed Keeps := ⟨of_ws, operate, note, writableSeries, Keeps.bind⟩

end Keeps

namespace FailsKept

variable {x : WriteM α} {f : α → WriteM β}

theorem of_keeps (h : Keeps x) : FailsKept x := fun ws _ _ => h ws

/-- A step that always returns fails in no run. -/
theorem of_ok (h : ∀ ws, ∃ a, (x.exec ws).1 = .ok a) : FailsKept x := by
  intro ws e he
  obtain ⟨a, ha⟩ := h ws
  rw [ha] at he
  cases he

theorem set (ws' : Workspace) : FailsKept (set ws' : WriteM PUnit) := of_ok fun _ => ⟨⟨⟩, rfl⟩

theorem modify (g : Workspace → Workspace) : FailsKept (modify g : WriteM PUnit) :=
  of_ok fun _ => ⟨⟨⟩, rfl⟩

/-- Checks that keep the data, then a step whose failures keep it. -/
protected theorem bind (hx : Keeps x) (hf : ∀ a, FailsKept (f a)) : FailsKept (x >>= f) := by
  intro ws e he
  rw [exec_bind] at he ⊢
  cases h : (x.exec ws).1 with
  | ok a =>
    rw [h] at he
    exact (hx ws).trans (hf a _ e he)
  | error e' => exact hx ws

protected theorem ite {c : Prop} [Decidable c] {y : WriteM α} (hx : FailsKept x)
    (hy : FailsKept y) : FailsKept (if c then x else y) := by
  split
  · exact hx
  · exact hy

end FailsKept

end WriteM

namespace WriteM.Closed

open Assign

variable {K : {α : Type} → WriteM α → Prop} (F : Closed K)

include F

theorem combine (existing : Value) (op : AssignOp) (rhs : Operand) (target : DeclaredType) :
    K (combine existing op rhs target) := by
  unfold Assign.combine
  dsimp only
  -- both ways of finding the operator meet at computing with it
  split
  all_goals
    refine F.bind ?_ fun _ => F.bind (F.operate _ _) fun _ =>
      F.ite (F.pure _) (F.bind F.dataset fun _ => F.lift _)
  · exact F.pure _
  · exact F.fail _

theorem update (slot : Value) (op : AssignOp) (rhs : Operand) (want : DeclaredType) :
    K (update slot op rhs want) := by
  unfold Assign.update
  split
  · refine F.ite ?_ (F.bind F.dataset fun _ => F.bind (F.lift _) fun _ => F.pure _)
    split
    · exact F.pure _
    · exact F.fail _
  · exact F.lift _
  · exact F.combine _ _ _ _

theorem writeMember (ms : Members) (key : String) (op : AssignOp) (rhs : Operand) (t : Target) :
    K (writeMember ms key op rhs t) := by
  unfold Assign.writeMember
  dsimp only
  refine F.ite ?_ (F.ite ?_ (F.bind (F.lift _) fun _ => F.pure _))
  · split
    · exact F.pure _
    · exact F.pure _
  · split
    · exact F.bind (F.fail _) fun _ => F.bind (F.lift _) fun _ => F.pure _
    · exact F.ite (F.bind (F.lift _) fun _ => F.pure _) (F.bind (F.combine _ _ _ _) fun _ => F.pure _)

/-- The last step of an element write hands on the array it built, or its fault. -/
theorem storeElements (r : Except Fault Elements) :
    K (match r with
      | .ok e => pure e
      | .error f => WriteM.fail f : WriteM Elements) := by
  cases r with
  | error f => exact F.fail f
  | ok e => exact F.pure e

theorem writeElement (e : Elements) (args : List Subscript) (op : AssignOp) (rhs : Operand)
    (t : Target) : K (writeElement e args op rhs t) := by
  unfold Assign.writeElement
  dsimp only
  split
  -- every way to the new element ends in storing it into the array
  all_goals
    refine F.bind ?_ fun _ => F.bind (F.lift _) fun _ =>
      F.ite (F.ite ?_ (F.bind (F.pure _) fun _ => F.storeElements _))
        (F.ite (F.bind (F.lift _) fun _ => F.storeElements _)
          (F.bind (F.combine _ _ _ _) fun _ => F.storeElements _))
  · exact F.pure _
  · split
    · exact F.bind (F.pure _) fun _ => F.storeElements _
    · exact F.bind (F.fail _) fun _ => F.storeElements _
  · exact F.fail _
  · split
    · exact F.bind (F.pure _) fun _ => F.storeElements _
    · exact F.bind (F.fail _) fun _ => F.storeElements _

theorem writeBlock (m : Matrix) (args : List Subscript) (op : AssignOp) (rhs : Operand)
    (t : Target) : K (writeBlock m args op rhs t) := by
  unfold Assign.writeBlock
  dsimp only
  refine F.bind (F.lift _) fun _ => ?_
  -- every way to the block ends in splicing it into the matrix
  split
  · refine F.ite (F.bind (F.fail _) fun _ => ?_) ?_
    all_goals
      refine F.bind (F.lift _) fun _ => ?_
      split
      · exact F.bind (F.pure _) fun _ => F.lift _
      · exact F.bind (F.fail _) fun _ => F.lift _
  · refine F.bind (F.lift _) fun _ => F.bind (F.operate _ _) fun _ => ?_
    split
    · exact F.bind (F.pure _) fun _ => F.lift _
    · exact F.bind (F.pure _) fun _ => F.lift _
    · exact F.bind (F.fail _) fun _ => F.lift _

theorem writeLeaf (slot : Value) (step : Step) (op : AssignOp) (rhs : Operand) (t : Target) :
    K (writeLeaf slot step op rhs t) := by
  unfold Assign.writeLeaf
  dsimp only
  refine F.bind (F.lift _) fun _ => ?_
  split
  · exact F.bind (F.writeMember _ _ _ _ _) fun _ => F.pure _
  · split
    · exact F.fail _
    · split
      · exact F.bind (F.writeElement _ _ _ _ _) fun _ => F.pure _
      · exact F.bind (F.lift _) fun _ => F.pure _
      · exact F.bind (F.lift _) fun _ => F.pure _
      · exact F.bind (F.writeBlock _ _ _ _ _) fun _ => F.pure _
      · exact F.bind (F.lift _) fun _ => F.bind (F.lift _) fun _ => F.bind (F.lift _) fun _ =>
          F.bind (F.note _) fun _ => F.pure _
      · exact F.fail _

/-- Computing the new value of a variable through its steps: only `nested` stores it. -/
theorem writeInto (slot : Value) (op : AssignOp) (rhs : Operand) (t : Target) (steps : List Step) :
    K (writeInto slot op rhs t steps) := by
  fun_induction Assign.writeInto slot op rhs t steps with
  | case1 slot => exact F.update _ _ _ _
  | case2 slot step => exact F.writeLeaf _ _ _ _ _
  | case3 slot step rest _ ih =>
    refine F.bind (F.lift _) fun _ => ?_
    split
    · exact F.fail _
    · exact F.bind (F.lift _) fun inner => F.bind (ih inner) fun _ => F.pure _

section Series

variable (hput : ∀ sid s, K (putSeries sid s))

include hput

/-- Writing a dataset series over the sample: the checks, then storing the series. -/
theorem writeSeries (sid : Nat) (text : String) (op : AssignOp) (rhs : Operand)
    (target : DeclaredType) : K (writeSeries sid text op rhs target) := by
  unfold Assign.writeSeries
  extract_lets rest check
  have hrest : ∀ u, K (rest u) := by
    intro u
    dsimp -zeta only [rest]
    refine F.bind F.dataset fun ds => F.ite (F.pure _) ?_
    extract_lets sample numeric
    have hnumeric : ∀ col, K (numeric col) := by
      intro col
      dsimp -zeta only [numeric]
      refine F.bind (F.writableSeries _) fun series => ?_
      extract_lets store
      have hstore : ∀ u, K (store u) := fun _ =>
        F.bind (F.foldlM _ _ fun _ _ => F.bind (F.note _) fun _ => F.pure _) fun _ => hput _ _
      exact F.ite (F.bind (F.fail _) hstore) (hstore ())
    split
    · refine F.bind (F.writableSeries _) fun series => ?_
      split
      · exact F.fail _
      · extract_lets store
        exact F.ite (F.bind (F.fail _) fun _ => hput _ _) (hput _ _)
    · split
      · exact F.bind (F.pure _) hnumeric
      · exact F.bind (F.fail _) hnumeric
  -- the operator check: three operators are refused for series
  have hcheck : ∀ u, K (check u) := by
    intro u
    dsimp only [check]
    split
    · exact F.bind (F.fail _) hrest
    · exact F.bind (F.fail _) hrest
    · exact F.bind (F.fail _) hrest
    · exact hrest ()
  -- the declared type check: any type or series
  split
  · exact hcheck ()
  · exact hcheck ()
  · exact F.bind (F.fail _) hcheck

/-- Writing one observation of a dataset series. -/
theorem writeObs (sid t : Nat) (text : String) (op : AssignOp) (rhs : Operand) :
    K (writeObs sid t text op rhs) := by
  unfold Assign.writeObs
  refine F.bind (F.writableSeries _) fun series => ?_
  split
  · extract_lets store
    have hstore : ∀ u, K (store u) := by
      intro u
      dsimp only [store]
      split
      · exact hput _ _
      · exact F.fail _
    exact F.ite (F.bind (F.fail _) hstore) (hstore ())
  · exact F.bind (F.lift _) fun _ => F.bind (F.note _) fun _ => hput _ _

end Series

end WriteM.Closed

namespace Assign

open WriteM

theorem define_failsKept (name : String) (op : AssignOp) (rhs : Operand) (target : DeclaredType) :
    FailsKept (define name op rhs target) := by
  unfold define
  extract_lets store value
  -- storing the value under the name is the only step that changes the data, and the last one
  have hstore : ∀ v, FailsKept (store v) := by
    intro v
    dsimp only [store]
    refine FailsKept.bind Keeps.closed.get fun ws => ?_
    split
    · exact FailsKept.ite (FailsKept.bind (Keeps.closed.liftData _) fun _ => FailsKept.set _)
        (FailsKept.bind (Keeps.closed.liftData _) fun _ => FailsKept.set _)
    · exact FailsKept.bind (Keeps.closed.liftData _) fun _ => FailsKept.set _
  have hvalue : ∀ u, FailsKept (value u) := by
    intro u
    dsimp only [value]
    split
    · split
      · exact FailsKept.bind (Keeps.closed.pure _) hstore
      · exact FailsKept.bind (Keeps.closed.fail _) hstore
    · exact FailsKept.bind Keeps.closed.dataset fun _ =>
        FailsKept.bind (Keeps.closed.lift _) fun _ => FailsKept.bind (Keeps.closed.pure _) hstore
  exact FailsKept.ite (FailsKept.bind (Keeps.closed.fail _) hvalue) (hvalue ())

theorem writeSeries_failsKept (sid : Nat) (text : String) (op : AssignOp) (rhs : Operand)
    (target : DeclaredType) : FailsKept (writeSeries sid text op rhs target) := by
  unfold writeSeries
  extract_lets rest check
  have hrest : ∀ u, FailsKept (rest u) := by
    intro u
    dsimp -zeta only [rest]
    refine FailsKept.bind Keeps.closed.dataset fun ds => FailsKept.ite (FailsKept.of_keeps (Keeps.closed.pure _)) ?_
    extract_lets sample numeric
    -- a numeric right-hand side: checked against the series, then written observation by observation
    have hnumeric : ∀ col, FailsKept (numeric col) := by
      intro col
      dsimp -zeta only [numeric]
      refine FailsKept.bind (Keeps.writableSeries _) fun series => ?_
      extract_lets store
      have hstore : ∀ u, FailsKept (store u) := fun _ =>
        FailsKept.bind (Keeps.closed.foldlM _ _ fun _ _ => (Keeps.note _).bind fun _ => Keeps.closed.pure _)
          fun _ => FailsKept.modify _
      exact FailsKept.ite (FailsKept.bind (Keeps.closed.fail _) hstore) (hstore ())
    split
    · refine FailsKept.bind (Keeps.writableSeries _) fun series => ?_
      split
      · exact FailsKept.of_keeps (Keeps.closed.fail _)
      · extract_lets store
        exact FailsKept.ite (FailsKept.bind (Keeps.closed.fail _) fun _ => FailsKept.modify _)
          (FailsKept.modify _)
    · split
      · exact FailsKept.bind (Keeps.closed.pure _) hnumeric
      · exact FailsKept.bind (Keeps.closed.fail _) hnumeric
  have hcheck : ∀ u, FailsKept (check u) := by
    intro u
    dsimp only [check]
    split
    all_goals first
      | exact FailsKept.bind (Keeps.closed.fail _) hrest
      | exact hrest ()
  split
  all_goals first
    | exact hcheck ()
    | exact FailsKept.bind (Keeps.closed.fail _) hcheck

theorem whole_failsKept (place : Place) (op : AssignOp) (rhs : Operand) (target : DeclaredType) :
    FailsKept (whole place op rhs target) := by
  unfold whole
  split
  · exact define_failsKept _ _ _ _
  · exact writeSeries_failsKept _ _ _ _ _
  · refine FailsKept.bind Keeps.closed.get fun ws => ?_
    split
    · exact FailsKept.of_keeps (Keeps.closed.fail _)
    · extract_lets kind want store
      have hstore : ∀ u, FailsKept (store u) := fun _ =>
        FailsKept.bind (Keeps.closed.update _ _ _ _) fun _ => FailsKept.modify _
      exact FailsKept.ite (FailsKept.bind (Keeps.closed.fail _) hstore) (hstore ())

theorem writeObs_failsKept (sid t : Nat) (text : String) (op : AssignOp) (rhs : Operand) :
    FailsKept (writeObs sid t text op rhs) := by
  unfold writeObs
  refine FailsKept.bind (Keeps.writableSeries _) fun series => ?_
  split
  · extract_lets store
    have hstore : ∀ u, FailsKept (store u) := by
      intro u
      dsimp only [store]
      split
      · exact FailsKept.modify _
      · exact FailsKept.of_keeps (Keeps.closed.fail _)
    exact FailsKept.ite (FailsKept.bind (Keeps.closed.fail _) hstore) (hstore ())
  · exact FailsKept.bind (Keeps.closed.lift _) fun _ => FailsKept.bind (Keeps.note _) fun _ =>
      FailsKept.modify _

theorem nested_failsKept (place : Place) (op : AssignOp) (rhs : Operand) (target : DeclaredType) :
    FailsKept (nested place op rhs target) := by
  unfold nested
  split
  · split
    · exact FailsKept.bind Keeps.closed.dataset fun _ => FailsKept.bind (Keeps.closed.lift _) fun _ =>
        writeObs_failsKept _ _ _ _ _
    · exact FailsKept.of_keeps (Keeps.closed.fail _)
  · refine FailsKept.bind Keeps.closed.get fun ws => ?_
    split
    · exact FailsKept.of_keeps (Keeps.closed.fail _)
    · exact FailsKept.bind (Keeps.closed.writeInto _ _ _ _ _) fun _ => FailsKept.modify _
  · exact FailsKept.of_keeps (Keeps.closed.fail _)

/-- An assignment that fails leaves the variables and the dataset as they were, up to the
dataset's modified flag. -/
theorem write_failsKept (place : Place) (op : AssignOp) (rhs : Operand) (target : DeclaredType) :
    FailsKept (write place op rhs target) :=
  FailsKept.ite (whole_failsKept _ _ _ _) (nested_failsKept _ _ _ _)

end Assign

/-- `after` is `before` with other variables, another dataset and another warning log: all that
a write may change. -/
def Workspace.DataOnly (before after : Workspace) : Prop :=
  ∃ vars dataset warnings, after = { before with vars, dataset, warnings }

namespace Workspace.DataOnly

theorem refl (ws : Workspace) : ws.DataOnly ws := ⟨ws.vars, ws.dataset, ws.warnings, rfl⟩

theorem trans {a b c : Workspace} (hab : a.DataOnly b) (hbc : b.DataOnly c) : a.DataOnly c := by
  obtain ⟨v, d, l, rfl⟩ := hab
  obtain ⟨v', d', l', rfl⟩ := hbc
  exact ⟨v', d', l', rfl⟩

theorem vars (ws : Workspace) (v : VarTable) : ws.DataOnly { ws with vars := v } :=
  ⟨v, ws.dataset, ws.warnings, rfl⟩

theorem dataset (ws : Workspace) (d : Dataset) : ws.DataOnly { ws with dataset := d } :=
  ⟨ws.vars, d, ws.warnings, rfl⟩

theorem log (ws : Workspace) (l : WarningLog) : ws.DataOnly { ws with warnings := l } :=
  ⟨ws.vars, ws.dataset, l, rfl⟩

theorem functions_eq {a b : Workspace} (h : a.DataOnly b) : b.functions = a.functions := by
  obtain ⟨v, d, l, rfl⟩ := h
  rfl

end Workspace.DataOnly

namespace WriteM

variable {α β γ : Type}

/-- Every run of `x` changes only the variables, the dataset and the warning log, whether it
returns or fails. -/
def Touches (x : WriteM α) : Prop := ∀ ws : Workspace, ws.DataOnly (x.exec ws).2

/-- A step run from the workspace it read, storing a value from a result that may fail. -/
theorem dataOnly_liftData_bind {ws : Workspace} (r : Except DataError γ) (g : γ → WriteM PUnit)
    (hg : ∀ c, ws.DataOnly ((g c).exec ws).2) : ws.DataOnly ((liftData r >>= g).exec ws).2 := by
  rw [exec_bind, exec_liftData]
  cases r with
  | error e => exact .refl ws
  | ok c => exact hg c

namespace Touches

variable {x : WriteM α} {f : α → WriteM β}

theorem of_ws (h : ∀ ws, (x.exec ws).2 = ws) : Touches x := by
  intro ws
  rw [h ws]
  exact .refl ws

theorem note (w : Option Warning) : Touches (note w) := by
  intro ws
  cases w
  · exact .refl ws
  · exact .log ws _

theorem operate (target : DeclaredType) (op : OpEnv → OpM Unit) : Touches (operate target op) := by
  intro ws
  obtain ⟨l, hl⟩ := @operate_ws ws target op
  rw [hl]
  exact .log ws l

theorem writableSeries (sid : Nat) : Touches (writableSeries sid) := by
  intro ws
  simp only [WriteM.writableSeries, exec_bind, exec_dataset]
  split
  · exact .refl ws
  · split
    · exact .refl ws
    · exact .dataset ws _

protected theorem bind (hx : Touches x) (hf : ∀ a, Touches (f a)) : Touches (x >>= f) := by
  intro ws
  rw [exec_bind]
  cases h : (x.exec ws).1 with
  | ok a => exact (hx ws).trans (hf a _)
  | error e => exact hx ws

theorem closed : Closed Touches := ⟨of_ws, operate, note, writableSeries, Touches.bind⟩

theorem putSeries (sid : Nat) (s : Series) : Touches (putSeries sid s) := fun ws => .dataset ws _

theorem modify_vars (g : Workspace → VarTable) :
    Touches (modify fun ws => { ws with vars := g ws } : WriteM PUnit) :=
  fun ws => .vars ws _

/-- A step after `get` runs from the workspace it read. -/
theorem get_bind {f : Workspace → WriteM β} (h : ∀ ws : Workspace, ws.DataOnly ((f ws).exec ws).2) :
    Touches (get >>= f) := by
  intro ws
  rw [exec_bind]
  exact h ws

end Touches

end WriteM

namespace Assign

open WriteM

theorem define_touches (name : String) (op : AssignOp) (rhs : Operand) (target : DeclaredType) :
    Touches (define name op rhs target) := by
  unfold define
  extract_lets store value
  -- the value is stored into the workspace read just before
  have hstore : ∀ v, Touches (store v) := by
    intro v
    dsimp only [store]
    refine Touches.get_bind fun ws => ?_
    split
    · split
      · exact dataOnly_liftData_bind _ _ fun _ => .dataset ws _
      · exact dataOnly_liftData_bind _ _ fun _ => .vars ws _
    · exact dataOnly_liftData_bind _ _ fun _ => .vars ws _
  have hvalue : ∀ u, Touches (value u) := by
    intro u
    dsimp only [value]
    split
    · split
      · exact Touches.bind (Touches.closed.pure _) hstore
      · exact Touches.bind (Touches.closed.fail _) hstore
    · exact Touches.bind Touches.closed.dataset fun _ =>
        Touches.bind (Touches.closed.lift _) fun _ => Touches.bind (Touches.closed.pure _) hstore
  exact Touches.closed.ite (Touches.bind (Touches.closed.fail _) hvalue) (hvalue ())

theorem writeSeries_touches (sid : Nat) (text : String) (op : AssignOp) (rhs : Operand)
    (target : DeclaredType) : Touches (writeSeries sid text op rhs target) :=
  Touches.closed.writeSeries Touches.putSeries _ _ _ _ _

theorem whole_touches (place : Place) (op : AssignOp) (rhs : Operand) (target : DeclaredType) :
    Touches (whole place op rhs target) := by
  have F := Touches.closed
  unfold whole
  split
  · exact define_touches _ _ _ _
  · exact writeSeries_touches _ _ _ _ _
  · refine F.bind F.get fun ws => ?_
    split
    · exact F.fail _
    · extract_lets kind want store
      have hstore : ∀ u, Touches (store u) := fun _ =>
        F.bind (F.update _ _ _ _) fun _ => Touches.modify_vars _
      exact F.ite (F.bind (F.fail _) hstore) (hstore ())

theorem writeObs_touches (sid t : Nat) (text : String) (op : AssignOp) (rhs : Operand) :
    Touches (writeObs sid t text op rhs) :=
  Touches.closed.writeObs Touches.putSeries _ _ _ _ _

theorem nested_touches (place : Place) (op : AssignOp) (rhs : Operand) (target : DeclaredType) :
    Touches (nested place op rhs target) := by
  have F := Touches.closed
  unfold nested
  split
  · split
    · exact F.bind F.dataset fun _ => F.bind (F.lift _) fun _ => writeObs_touches _ _ _ _ _
    · exact F.fail _
  · refine F.bind F.get fun ws => ?_
    split
    · exact F.fail _
    · exact F.bind (F.writeInto _ _ _ _ _) fun _ => Touches.modify_vars _
  · exact F.fail _

/-- **A write changes only the data.** Every assignment, whatever it returns, leaves the
workspace as it was but for its variables, its dataset and its warning log. -/
theorem write_touches (place : Place) (op : AssignOp) (rhs : Operand) (target : DeclaredType) :
    Touches (write place op rhs target) :=
  Touches.closed.ite (whole_touches _ _ _ _) (nested_touches _ _ _ _)

end Assign

end SeriesCalc
