import SeriesCalc.Proofs.Calls.Table
import SeriesCalc.Proofs.Calls.Depth

/-!
# Calls give the compiled copies back

A call takes the compiled copy of its function out of the table for as long as it runs and
checks back in the copy it ends with (`Walk.call`). Unless the run stops at once (an abort: a
panic, which no statement reports), every statement gives the table back restored
(`FunctionTable.Restored`): it names the same functions and holds every compiled copy it held.

* **Settling steps** (`EvalM.Settles fr x Q`): every run of `x` that does not abort ends with
  the table restored, and a value it returns satisfies `Q`. The walk steps settle
  (`EvalM.Settles.walkClosed`); a call settles once the frame's bodies give the table back and
  return a copy with the name and the compiledness of the one they ran (`Run.Restores`).
* **Invocations fail only by aborting** (`Walk.invoke_onlyAborts`): errors of binding, of the
  body and of handing pointer arguments back are returned as the call's result, so the copy
  taken out is checked back in.
* **Every level of calls** (`Run.statementAt_restores`): the runs of `Run.statementAt` restore
  the table and give each statement back, by induction on the levels left.
-/

namespace SeriesCalc

/-- A result that stops the whole run: an abort, which no statement reports. -/
def Aborted {α : Type} : Except EvalError α → Prop
  | .error e => e.isAbort = true
  | .ok _ => False

@[simp] theorem not_aborted_ok {α : Type} (a : α) : ¬ Aborted (.ok a : Except EvalError α) := id

@[simp] theorem aborted_error {α : Type} (e : EvalError) :
    Aborted (.error e : Except EvalError α) ↔ e.isAbort = true := Iff.rfl

namespace EvalM

variable {α β : Type} {fr : Frame}

/-- The run of `x` from `m`, unless it aborts, ends with the table restored and returns a value
satisfying `Q`. -/
def SettlesFrom (fr : Frame) (m : Machine) (x : EvalM α) (Q : α → Prop) : Prop :=
  ¬ Aborted (x.exec fr m).1 →
    m.ws.functions.Restored (x.exec fr m).2.ws.functions ∧ ∀ a, (x.exec fr m).1 = .ok a → Q a

/-- Every run of `x` that does not abort ends with the table restored and returns a value
satisfying `Q`. -/
def Settles (fr : Frame) (x : EvalM α) (Q : α → Prop) : Prop := ∀ m, SettlesFrom fr m x Q

/-- Every run of `x` that fails aborts. -/
def OnlyAborts (fr : Frame) (x : EvalM α) : Prop :=
  ∀ m e, (x.exec fr m).1 = .error e → e.isAbort = true

/-- The table is `t`; no write to the data changes it. -/
theorem functions_dataBlind (t : FunctionTable) : DataBlind fun ws => ws.functions = t :=
  fun _ _ _ _ h => h

namespace Settles

variable {x : EvalM α} {f : α → EvalM β} {Q R : α → Prop} {S : β → Prop}

/-- A step that leaves the table alone settles. -/
theorem of_functions (h : ∀ m, (x.exec fr m).2.ws.functions = m.ws.functions) :
    Settles fr x fun _ => True :=
  fun m _ => ⟨.of_eq (h m), fun _ _ => trivial⟩

theorem of_stays (h : ∀ t, Stays fr (fun ws => ws.functions = t) x) : Settles fr x fun _ => True :=
  of_functions fun m => h m.ws.functions m rfl

protected theorem pure {a : α} (h : Q a) : Settles fr (pure a) Q :=
  fun _ _ => ⟨.refl _, fun _ ha => by cases ha; exact h⟩

protected theorem throw (e : EvalError) : Settles fr (throw e : EvalM α) Q :=
  fun _ _ => ⟨.refl _, fun _ ha => by cases ha⟩

theorem fail (e : Fault) : Settles fr (EvalM.fail e : EvalM α) Q := Settles.throw _

theorem conseq (h : Settles fr x Q) (hQ : ∀ a, Q a → R a) : Settles fr x R :=
  fun m hm => ⟨(h m hm).1, fun a ha => hQ a ((h m hm).2 a ha)⟩

theorem compute (pos : Nat) (op : OpEnv → OpM Unit) :
    Settles fr (EvalM.compute pos op) fun _ => True :=
  of_functions fun m => by
    obtain ⟨l, hl⟩ := @compute_ws fr m pos op
    rw [hl]

protected theorem bind (hx : Settles fr x Q) (hf : ∀ a, Q a → Settles fr (f a) S) :
    Settles fr (x >>= f) S := by
  intro m
  unfold SettlesFrom
  rw [exec_bind]
  cases h : (x.exec fr m).1 with
  | ok a =>
    intro hna
    obtain ⟨hr, hq⟩ := hx m (by simp [h])
    obtain ⟨hr', hq'⟩ := hf a (hq a h) _ hna
    exact ⟨hr.trans hr', hq'⟩
  | error e =>
    intro hna
    exact ⟨(hx m (by rwa [h])).1, fun _ ha => by cases ha⟩

theorem read_bind {f : Frame → EvalM β} (h : Settles fr (f fr) S) : Settles fr (read >>= f) S := by
  intro m
  unfold SettlesFrom
  rw [exec_bind]
  exact h m

/-- A step after `workspace` sees the workspace of the machine it runs from. -/
theorem workspace_bind {f : Workspace → EvalM β} (h : ∀ m, SettlesFrom fr m (f m.ws) S) :
    Settles fr (EvalM.workspace >>= f) S := by
  intro m
  unfold SettlesFrom
  rw [exec_bind]
  exact h m

protected theorem mapM {f : α → EvalM β} :
    ∀ (l : List α), (∀ a ∈ l, Settles fr (f a) fun _ => True) → Settles fr (l.mapM f) fun _ => True
  | [], _ => Settles.pure trivial
  | a :: l, h => by
    rw [List.mapM_cons]
    exact (h a List.mem_cons_self).bind fun _ _ =>
      (Settles.mapM l fun b hb => h b (List.mem_cons_of_mem _ hb)).bind fun _ _ => Settles.pure trivial

/-- The walk steps settle. -/
theorem walkClosed : WalkClosed fr fun x => Settles fr x fun _ => True :=
  ⟨fun h => of_functions fun m => by rw [h m], compute, fun hx hf => hx.bind fun a _ => hf a,
    read_bind⟩

/-- An attempt settles when its step does: an error it catches is not an abort. -/
theorem attempt (hx : Settles fr x fun _ => True) : Settles fr (Walk.attempt x) fun _ => True := by
  intro m
  unfold Walk.attempt SettlesFrom
  rw [exec_tryCatch, map_eq_pure_bind, exec_bind]
  cases h : (x.exec fr m).1 with
  | ok a => exact fun _ => ⟨(hx m (by simp [h])).1, fun _ _ => trivial⟩
  | error e =>
    dsimp only
    split
    · rename_i hab
      intro hna
      exact (hna (by simpa using hab)).elim
    · rename_i hab
      exact fun _ => ⟨(hx m (by simpa [h] using hab)).1, fun _ _ => trivial⟩

end Settles

/-- A step that replaces the workspace by one whose table is restored, then settles. -/
theorem SettlesFrom.modifyWorkspace_bind {m : Machine} {g : Workspace → Workspace} {k : Unit → EvalM β}
    {S : β → Prop} (hg : m.ws.functions.Restored (g m.ws).functions) (hk : Settles fr (k ()) S) :
    SettlesFrom fr m (modifyWorkspace g >>= k) S := by
  unfold SettlesFrom
  rw [exec_bind, exec_modifyWorkspace]
  intro hna
  obtain ⟨hr, hq⟩ := hk _ hna
  exact ⟨hg.trans hr, hq⟩


namespace OnlyAborts

variable {x : EvalM α} {f : α → EvalM β}

protected theorem pure (a : α) : OnlyAborts fr (pure a) := fun _ _ h => by cases h

protected theorem throw {e : EvalError} (h : e.isAbort = true) : OnlyAborts fr (throw e : EvalM α) :=
  fun _ _ he => by
    cases he
    exact h

theorem modifyWorkspace (g : Workspace → Workspace) : OnlyAborts fr (modifyWorkspace g) :=
  fun _ _ h => by cases h

protected theorem bind (hx : OnlyAborts fr x) (hf : ∀ a, OnlyAborts fr (f a)) :
    OnlyAborts fr (x >>= f) := by
  intro m e
  rw [exec_bind]
  cases h : (x.exec fr m).1 with
  | ok a => exact hf a _ e
  | error e' =>
    intro he
    cases he
    exact hx m _ h

theorem read_bind {f : Frame → EvalM β} (h : OnlyAborts fr (f fr)) : OnlyAborts fr (read >>= f) := by
  intro m e
  rw [exec_bind]
  exact h m e

theorem workspace_bind {f : Workspace → EvalM β} (h : ∀ ws, OnlyAborts fr (f ws)) :
    OnlyAborts fr (EvalM.workspace >>= f) := by
  intro m e
  rw [exec_bind]
  exact h m.ws m e

/-- A handler that does not fail leaves only its own failures. -/
protected theorem tryCatch {h : EvalError → EvalM α} (hh : ∀ e, OnlyAborts fr (h e)) :
    OnlyAborts fr (tryCatch x h) := by
  intro m e
  rw [exec_tryCatch]
  cases hr : (x.exec fr m).1 with
  | ok a => intro he; cases he
  | error e' => exact hh e' _ e

theorem attempt (x : EvalM α) : OnlyAborts fr (Walk.attempt x) := by
  unfold Walk.attempt
  refine OnlyAborts.tryCatch fun e => ?_
  split
  · rename_i hab
    intro m e' he
    cases he
    exact hab
  · exact OnlyAborts.pure _

end OnlyAborts

end EvalM

namespace Run

/-- A way of running bodies that, unless it aborts, gives the table back restored and returns
a copy with the name and the compiledness of the one it ran. -/
def Restores (invoke : Workspace → UserFunction → Workspace × UserFunction × Except EvalError Value) :
    Prop :=
  ∀ ws fn, ¬ Aborted (invoke ws fn).2.2 →
    ws.functions.Restored (invoke ws fn).1.functions ∧
      (invoke ws fn).2.1.name = fn.name ∧ (invoke ws fn).2.1.isCompiled = fn.isCompiled

end Run

namespace Walk

open EvalM

variable {fr : Frame} {child : Nat → EvalM Nat}

theorem bindArgs_settles :
    ∀ (ps : List (Param × Nat)), (∀ q ∈ ps, Settles fr (child q.2) fun _ => True) →
      ∀ (locals : VarTable) (lent : List (String × Lent)),
        Settles fr (bindArgs child ps locals lent) fun _ => True :=
  fun ps hchild => bindArgs_closed (K := fun x => Settles fr x fun _ => True)
    (fun _ => Settles.pure trivial) (fun hx hf => hx.bind fun a _ => hf a)
    (fun p node => Settles.attempt (Settles.of_stays fun t =>
      borrow_stays (functions_dataBlind t) p node)) ps
    fun pn hpn => Settles.attempt ((hchild pn hpn).bind fun c _ =>
      Settles.of_stays fun _ => Walk.converted_stays c pn.1.declared)

/-- Binding fails only by aborting: an argument's error is returned with what was bound. -/
theorem bindArgs_onlyAborts (ps : List (Param × Nat)) (locals : VarTable)
    (lent : List (String × Lent)) :
    OnlyAborts fr (bindArgs child ps locals lent) :=
  bindArgs_closed (K := fun x => OnlyAborts fr x) OnlyAborts.pure OnlyAborts.bind
    (fun _ _ => OnlyAborts.attempt _) ps (fun _ _ => OnlyAborts.attempt _) locals lent

/-- The end of a call, handing pointer arguments back, fails only by aborting: a hand-back
error is returned as the call's result. -/
theorem giveBack_join_onlyAborts (lent : List (String × Lent)) (locals : VarTable)
    (fn : UserFunction) (result : Except EvalError Value) :
    OnlyAborts fr (do
      let back ← tryCatch (do giveBack lent locals; pure none) fun e => pure (some e)
      match back with
      | some e => pure (fn, Except.error e)
      | none => pure (fn, result)) :=
  (OnlyAborts.tryCatch fun _ => OnlyAborts.pure _).bind fun back => by
    split
    · exact OnlyAborts.pure _
    · exact OnlyAborts.pure _

/-- The end of a call leaves the table alone and returns the copy it was given. -/
theorem giveBack_join_settles (lent : List (String × Lent)) (locals : VarTable)
    (fn : UserFunction) (result : Except EvalError Value) :
    Settles fr (do
      let back ← tryCatch (do giveBack lent locals; pure none) fun e => pure (some e)
      match back with
      | some e => pure (fn, Except.error e)
      | none => pure (fn, result)) fun p => p.1 = fn :=
  (Settles.of_stays fun t => Stays.tryCatch ((giveBack_stays (functions_dataBlind t) _ _).bind
      fun _ => Stays.pure _) fun _ => Stays.pure _).bind fun back _ => by
    split
    · exact Settles.pure rfl
    · exact Settles.pure rfl

/-- An invocation fails only by aborting: errors of binding, of the body and of handing pointer
arguments back are returned as its result. -/
theorem invoke_onlyAborts (fn : UserFunction) (args : List Nat) :
    OnlyAborts fr (invoke child fn args) := by
  unfold invoke
  split
  · exact OnlyAborts.pure _
  refine (bindArgs_onlyAborts _ _ _).bind fun b => ?_
  obtain ⟨locals, lent, failure⟩ := b
  dsimp only
  split
  · exact (OnlyAborts.pure _).bind fun _ => giveBack_join_onlyAborts lent _ _ _
  · refine OnlyAborts.read_bind (OnlyAborts.workspace_bind fun ws => ?_)
    split
    -- the body's abort is thrown on; everything else is kept as the result
    split
    · exact (OnlyAborts.throw ‹_›).bind fun _ => (OnlyAborts.modifyWorkspace _).bind fun _ =>
        (OnlyAborts.pure _).bind fun _ => giveBack_join_onlyAborts lent _ _ _
    · exact (OnlyAborts.modifyWorkspace _).bind fun _ => (OnlyAborts.pure _).bind fun _ =>
        giveBack_join_onlyAborts lent _ _ _
    · exact (OnlyAborts.modifyWorkspace _).bind fun _ => (OnlyAborts.pure _).bind fun _ =>
        giveBack_join_onlyAborts lent _ _ _

/-- **An invocation settles**: unless it aborts, it gives the table back restored, and the copy
comes back with its name and its compiledness. -/
theorem invoke_settles (hfr : Run.Restores fr.invoke) {fn : UserFunction} {args : List Nat}
    (hchild : ∀ c ∈ args, Settles fr (child c) fun _ => True) :
    Settles fr (invoke child fn args) fun p => p.1.name = fn.name ∧ p.1.isCompiled = fn.isCompiled := by
  unfold invoke
  split
  · exact Settles.pure ⟨rfl, rfl⟩
  refine (bindArgs_settles _ (fun q hq => hchild q.2 (List.of_mem_zip hq).2) _ _).bind fun b _ => ?_
  obtain ⟨locals, lent, failure⟩ := b
  have hjoin : ∀ (fn' : UserFunction) (result : Except EvalError Value) (locals : VarTable),
      fn'.name = fn.name → fn'.isCompiled = fn.isCompiled → Settles fr _ _ :=
    fun fn' result locals hname hcomp => Settles.conseq (giveBack_join_settles lent locals fn' result)
      fun p hp => (show p.1.name = fn.name ∧ p.1.isCompiled = fn.isCompiled by
        rw [hp]
        exact ⟨hname, hcomp⟩)
  dsimp only
  split
  · rw [pure_bind]
    exact hjoin _ _ _ rfl rfl
  · refine Settles.read_bind (Settles.workspace_bind fun m => ?_)
    -- the body runs on the caller's table and, unless it aborts, gives it back restored
    have hbody := hfr (enterBody m.ws locals) fn
    split
    · rename_i e he
      split
      · exact ((Settles.throw _).bind fun _ h => (h : False).elim) m
      · rename_i hab
        obtain ⟨hr, hname, hcomp⟩ := hbody (by rw [he]; simpa using hab)
        refine SettlesFrom.modifyWorkspace_bind hr ?_
        rw [pure_bind]
        exact hjoin _ _ _ hname hcomp
    · rename_i hok
      obtain ⟨hr, hname, hcomp⟩ := hbody (by
        cases h : (fr.invoke (enterBody m.ws locals) fn).2.2 with
        | ok v => simp
        | error e => exact absurd h (hok e))
      refine SettlesFrom.modifyWorkspace_bind hr ?_
      rw [pure_bind]
      exact hjoin _ _ _ hname hcomp

/-- **A call settles**: the copy taken out of the table comes back in, since the invocation
fails only by aborting and returns a copy with the name and the compiledness of the one it
took. -/
theorem call_settles (hfr : Run.Restores fr.invoke) {pos : Nat} {name : String} {args : List Nat}
    (hchild : ∀ c ∈ args, Settles fr (child c) fun _ => True) :
    Settles fr (call child pos name args) fun _ => True := by
  unfold call
  refine Settles.workspace_bind fun m => ?_
  split
  · exact ((Settles.mapM _ hchild).bind fun _ _ => Settles.compute _ _) m
  by_cases hc : (!m.ws.functions.contains name) = true
  · rw [if_pos hc]
    exact Settles.fail _ m
  rw [if_neg hc]
  by_cases hd : m.ws.depth ≥ m.ws.config.maxDepth
  · simp only [if_pos hd]
    exact Settles.fail _ m
  simp only [if_neg hd]
  cases hout : m.ws.functions.checkout name with
  | none => exact Settles.fail _ m
  | some tf =>
  obtain ⟨table, fn⟩ := tf
  unfold SettlesFrom
  rw [exec_bind, exec_modifyWorkspace, exec_bind]
  cases h : ((invoke child fn args).exec fr { m with ws := { m.ws with functions := table } }).1 with
  | error e =>
    intro hna
    exact (hna (by simpa using invoke_onlyAborts fn args _ e h)).elim
  | ok p =>
    obtain ⟨fn', result⟩ := p
    have hs : Settles fr (invoke child fn args)
        fun p => p.1.name = fn.name ∧ p.1.isCompiled = fn.isCompiled := invoke_settles hfr hchild
    obtain ⟨hr, hq⟩ := hs { m with ws := { m.ws with functions := table } } (by
      rw [h]
      exact not_aborted_ok _)
    obtain ⟨hname, hcomp⟩ := hq _ h
    have hback := FunctionTable.Restored.checkout_checkin hout hr hname hcomp
    dsimp only
    rw [exec_bind, exec_modifyWorkspace]
    -- the error is thrown, or the value computed, against the table the copy came back to
    cases result with
    | error e =>
      exact fun hna => ⟨hback.trans (Settles.throw (Q := fun _ => True) _ _ hna).1, fun _ _ => trivial⟩
    | ok v =>
      exact fun hna => ⟨hback.trans (Settles.compute pos (fun _ => OpM.put v) _ hna).1, fun _ _ => trivial⟩

end Walk

/-- Every position settles, whatever it calls, once the frame's bodies give the table back. -/
theorem evalNode_settles {fr : Frame} (hfr : Run.Restores fr.invoke) (pos : Nat) :
    EvalM.Settles fr (evalNode pos) fun _ => True :=
  evalNode_keeps EvalM.Settles.walkClosed.blind pos
    (fun _ _ _ _ _ hn hchild => Walk.call_settles hfr fun c hc =>
      hchild c (Forest.Below.kid hn (by simpa [Node.kids] using hc)))
    pos (Forest.Below.refl _ _)

/-- Compiledness is read off the statements alone. -/
theorem UserFunction.isCompiled_congr {f g : UserFunction}
    (hb : g.body.map (·.stmt) = f.body.map (·.stmt))
    (hr : g.returns.map (·.2.stmt) = f.returns.map (·.2.stmt)) : g.isCompiled = f.isCompiled := by
  have hbody : g.body.all (·.stmt.compiled) = f.body.all (·.stmt.compiled) := by
    have := congrArg (fun l : List Statement => l.all (·.compiled)) hb
    simpa [List.all_map, Function.comp_def] using this
  have hret : g.returns.all (·.2.stmt.compiled) = f.returns.all (·.2.stmt.compiled) := by
    cases hg : g.returns <;> cases hf : f.returns <;> simp_all
  unfold UserFunction.isCompiled
  rw [hbody, hret]

namespace Run

open EvalM

/-- A way of running statements that, unless it aborts, gives the table back restored, and
gives each statement back as it was, with other cells. -/
structure StatementsRestore
    (run : Bool → Workspace → Runnable → Workspace × Runnable × Except EvalError Value) : Prop where
  restores : ∀ b ws r, ¬ Aborted (run b ws r).2.2 → ws.functions.Restored (run b ws r).1.functions
  stmt : ∀ b ws r, (run b ws r).2.1.stmt = r.stmt

theorem checkWarnings_functions (ws : Workspace) :
    (checkWarnings ws).1.functions = ws.functions := by
  unfold checkWarnings
  split <;> rfl

theorem statementWith_stmt
    (invoke : Workspace → UserFunction → Workspace × UserFunction × Except EvalError Value)
    (wantValue : Bool) (ws : Workspace) (r : Runnable) :
    (statementWith invoke wantValue ws r).2.1.stmt = r.stmt := by
  unfold statementWith
  dsimp only
  split
  rename_i result m _
  cases result with
  | error e => rfl
  | ok v =>
    dsimp only
    split <;> rfl

/-- **A statement settles** once the bodies it runs do. -/
theorem statementWith_restores
    {invoke : Workspace → UserFunction → Workspace × UserFunction × Except EvalError Value}
    (hinv : Restores invoke) : StatementsRestore (statementWith invoke) := by
  refine ⟨fun wantValue ws r => ?_, statementWith_stmt invoke⟩
  unfold statementWith
  dsimp only
  simp only [EvalM.run_eq_exec]
  have hwalk : Settles ⟨r.stmt.forest, r.stmt.declared, invoke⟩ (walk r.stmt wantValue)
      fun _ => True :=
    walk_keeps Settles.walkClosed.blind (evalNode_settles hinv)
      (fun place op rhs target => Settles.of_functions fun m =>
        (store_dataOnly place op rhs target _ m).functions_eq)
      r.stmt wantValue
  have hrun := hwalk ⟨ws, r.cells.validate ⟨ws.dataset.nobs, ws.dataset.epoch, ws.vars.epoch⟩⟩
  unfold SettlesFrom at hrun
  generalize (walk r.stmt wantValue).exec _ _ = p at hrun ⊢
  obtain ⟨res, m⟩ := p
  cases res with
  | error e => exact fun hna => (hrun hna).1
  | ok v =>
    dsimp only
    split <;> exact fun _ => (checkWarnings_functions m.ws).symm ▸ (hrun (by simp)).1

section Body

variable {run : Bool → Workspace → Runnable → Workspace × Runnable × Except EvalError Value}
  (h : StatementsRestore run)

include h

/-- A body gives each statement back as it was. -/
theorem bodyRun_stmts : ∀ (ws : Workspace) (rs : List Runnable),
    (bodyRun run ws rs).2.1.map (·.stmt) = rs.map (·.stmt)
  | _, [] => rfl
  | ws, r :: rest => by
    simp only [bodyRun]
    split
    · simp [← h.stmt false ws r, *]
    · simp [← h.stmt false ws r, bodyRun_stmts, *]

/-- A body that does not abort gives the table back restored: each statement does. -/
theorem bodyRun_restores : ∀ (ws : Workspace) (rs : List Runnable),
    ¬ Aborted (bodyRun run ws rs).2.2 → ws.functions.Restored (bodyRun run ws rs).1.functions
  | _, [] => fun _ => .refl _
  | ws, r :: rest => by
    simp only [bodyRun]
    split
    · rename_i e he
      intro hna
      refine h.restores false ws r ?_
      rw [he]
      exact hna
    · rename_i v hv
      intro hna
      have hfirst := h.restores false ws r (by rw [hv]; exact not_aborted_ok _)
      exact hfirst.trans (bodyRun_restores _ rest hna)

/-- **A function's body settles**: unless it aborts, it gives the table back restored and the
copy back with its name and compiledness. -/
theorem bodyWith_restores : Restores (bodyWith run) := by
  intro ws fn
  unfold bodyWith
  have hbody := bodyRun_stmts h ws fn.body
  have hrun := bodyRun_restores h ws fn.body
  split
  · rename_i ws' body e hb
    rw [hb] at hbody hrun
    exact fun hna => ⟨hrun hna, rfl, UserFunction.isCompiled_congr hbody rfl⟩
  · rename_i ws' body hb
    rw [hb] at hbody hrun
    have hws := hrun (not_aborted_ok _)
    split
    · exact fun _ => ⟨hws, rfl, UserFunction.isCompiled_congr hbody rfl⟩
    · rename_i t r hret
      have hcopy : ∀ r' : Runnable, r'.stmt = r.stmt →
          ({ fn with body, returns := some (t, r') } : UserFunction).isCompiled = fn.isCompiled :=
        fun r' hr' => UserFunction.isCompiled_congr hbody (by simp [hret, hr'])
      -- the return statement runs last, on the table the body gave back
      have hlast := h.restores true ws' r
      have hstmt := h.stmt true ws' r
      split
      rename_i ws'' r' res hres
      rw [hres] at hlast hstmt
      split
      · exact fun hna => ⟨hws.trans (hlast hna), rfl, hcopy _ hstmt⟩
      · exact fun _ => ⟨hws.trans (hlast (not_aborted_ok _)), rfl, hcopy _ hstmt⟩

end Body

/-- The statement runner below the last level: a call there fails at once, as the call depth
has reached its limit. -/
theorem limit_restores :
    Restores fun ws fn => (ws, fn, .error (Fault.recursionLimit ws.config.maxDepth : EvalError)) :=
  fun _ _ _ => ⟨.refl _, rfl, rfl⟩

/-- **Every level of calls settles**: the statements run with any number of levels left give
the table back restored unless they abort. -/
theorem statementAt_restores : ∀ fuel, StatementsRestore (statementAt fuel)
  | 0 => statementWith_restores limit_restores
  | fuel + 1 => statementWith_restores (bodyWith_restores (statementAt_restores fuel))

end Run

namespace Runnable

/-- **A statement leaves the call machinery as it found it.** Against a table whose entries all
hold their compiled copies (as every table built by defining functions does,
`FunctionTable.defineAll_warm_settled`), a statement, whether it succeeds or fails and whatever
it calls, leaves the call depth as it was and, unless it aborts, a table that names the same
functions with every entry holding its compiled copy again. A user call made once the depth has
reached the limit fails at once with the recursion limit. -/
theorem evaluate_restores_calls (ws : Workspace) (hwarm : ws.functions.Warm)
    (hset : ws.functions.Settled) (r : Runnable) :
    (r.evaluate ws).1.depth = ws.depth ∧
      (Aborted (r.evaluate ws).2.2 ∨
        (r.evaluate ws).1.functions.keys = ws.functions.keys ∧ (r.evaluate ws).1.functions.Warm ∧
          (r.evaluate ws).1.functions.Settled) ∧
      ∀ (fr : Frame) (child : Nat → EvalM Nat) (m : Machine) (pos : Nat) (name : String)
        (args : List Nat), (m.ws.library = true → Builtin.ofName? name = none) →
        m.ws.functions.contains name = true → m.ws.config.maxDepth ≤ m.ws.depth →
        (Walk.call child pos name args).exec fr m =
          (.error (Fault.recursionLimit m.ws.config.maxDepth : EvalError), m) := by
  refine ⟨evaluate_depth ws r, ?_, fun _ _ _ _ _ _ hlib hdef hlimit =>
    Walk.call_at_limit hlib hdef hlimit⟩
  by_cases hab : Aborted (r.evaluate ws).2.2
  · exact .inl hab
  · have h := (Run.statementAt_restores (ws.config.maxDepth + 1)).restores true ws r hab
    exact .inr ⟨h.keys, h.keeps_warm hset hwarm, h.settled hset⟩

/-- Against the table that defines `f`, a call of `f` made at the default limit of 256 levels
fails at once with the recursion limit. -/
theorem call_at_default_limit_fails :
    ((Walk.call (fun _ => pure 0) 0 "f" []).exec ⟨default, .any, fun ws fn => (ws, fn, .ok .null)⟩
      ⟨{ dataset := default, functions := [({ name := "f" } : UserFunction)].foldl FunctionTable.define {},
          library := false, depth := 256 }, {}⟩).1 =
      .error (Fault.recursionLimit 256 : EvalError) := by
  obtain ⟨hwarm, hset⟩ := FunctionTable.defineAll_warm_settled [({ name := "f" } : UserFunction)]
  have h := (evaluate_restores_calls { dataset := default, functions := _ } hwarm hset default).2.2
    ⟨default, .any, fun ws fn => (ws, fn, .ok .null)⟩ (fun _ => pure 0)
    ⟨{ dataset := default, functions := [({ name := "f" } : UserFunction)].foldl FunctionTable.define {},
        library := false, depth := 256 }, {}⟩ 0 "f" [] (fun h => by cases h) (by decide) (by decide)
  rw [h]

end Runnable

end SeriesCalc
