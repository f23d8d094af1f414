import SeriesCalc.Eval.Machine
import SeriesCalc.Eval.Walk

/-!
# Running a walk

`EvalM.exec x fr m` runs the walk step `x` in the frame `fr` from the machine `m`: its result and
the machine after it. The `exec_*` lemmas take a run apart (a bind, a caught failure, the cell
and workspace operations), so that later proofs never unfold the monad stack.

`EvalM.Stays fr P x`: every run of `x` from a machine whose workspace satisfies `P` ends in one
whose workspace satisfies `P`, whether `x` returns or fails. It is closed under `pure`, `bind`,
`tryCatch`, `mapM` and `foldlM` (`Stays.bind`, ...). Cell operations change no workspace, and
`compute` changes only the warning log, so it keeps every `P` that does not look at the log
(`LogBlind`).

`EvalM.FailsIn fr P Q x` speaks of the runs that fail, and `EvalM.Triple fr P x Q` of the runs
that return: each ends in a workspace satisfying `Q`.

Binding the arguments of a call is built from caught borrows and caught argument evaluations
joined by `bind`, so every property of steps that `pure` has and `bind` keeps holds of it once
it holds of those (`Walk.bindArgs_closed`).
-/

namespace SeriesCalc

/-- Run a walk step in a frame from a machine. -/
def EvalM.exec {α : Type} (x : EvalM α) (fr : Frame) (m : Machine) : Except EvalError α × Machine :=
  ((x.run fr).run).run m

/-- A walk step run through the monad stack, as a statement runs its walk, is its `exec`. -/
theorem EvalM.run_eq_exec {α : Type} (x : EvalM α) (fr : Frame) (m : Machine) :
    ((x.run fr).run).run m = x.exec fr m :=
  rfl

namespace EvalM

variable {α β : Type} {fr : Frame} {m : Machine}

@[simp] theorem exec_pure (a : α) : (pure a : EvalM α).exec fr m = (.ok a, m) := rfl

@[simp] theorem exec_throw (e : EvalError) : (throw e : EvalM α).exec fr m = (.error e, m) := rfl

@[simp] theorem exec_read : (read : EvalM Frame).exec fr m = (.ok fr, m) := rfl

@[simp] theorem exec_get : (get : EvalM Machine).exec fr m = (.ok m, m) := rfl

@[simp] theorem exec_set (m' : Machine) : (set m' : EvalM PUnit).exec fr m = (.ok ⟨⟩, m') := rfl

@[simp] theorem exec_modifyGet (f : Machine → α × Machine) :
    (modifyGet f : EvalM α).exec fr m = (.ok (f m).1, (f m).2) := rfl

theorem exec_bind (x : EvalM α) (f : α → EvalM β) :
    (x >>= f).exec fr m = match (x.exec fr m).1 with
      | .ok a => (f a).exec fr (x.exec fr m).2
      | .error e => (.error e, (x.exec fr m).2) := by
  simp only [exec, ReaderT.run_bind, ExceptT.run_bind, StateT.run_bind]
  generalize StateT.run (ReaderT.run x fr).run m = p
  obtain ⟨r, m'⟩ := p
  cases r <;> rfl

theorem exec_tryCatch (x : EvalM α) (h : EvalError → EvalM α) :
    (tryCatch x h).exec fr m = match (x.exec fr m).1 with
      | .ok a => (.ok a, (x.exec fr m).2)
      | .error e => (h e).exec fr (x.exec fr m).2 := by
  show (ExceptT.tryCatch (x fr) (fun e => h e fr)).run.run m = _
  simp only [ExceptT.tryCatch, ExceptT.run, ExceptT.mk, StateT.run_bind, exec, ReaderT.run]
  generalize StateT.run (x fr) m = p
  obtain ⟨r, m'⟩ := p
  cases r <;> rfl

@[simp] theorem exec_fail (f : Fault) : (fail f : EvalM α).exec fr m = (.error (f : EvalError), m) :=
  rfl

theorem exec_lift (r : Except EvalError α) : (lift r).exec fr m = (r, m) := by
  cases r <;> rfl

@[simp] theorem exec_workspace : workspace.exec fr m = (.ok m.ws, m) := rfl

@[simp] theorem exec_modifyWorkspace (f : Workspace → Workspace) :
    (modifyWorkspace f).exec fr m = (.ok (), { m with ws := f m.ws }) := rfl

@[simp] theorem exec_modifyCells (f : CellStore → CellStore × α) :
    (modifyCells f).exec fr m = (.ok (f m.cells).2, { m with cells := (f m.cells).1 }) := rfl

@[simp] theorem exec_operand (id : Nat) :
    (operand id).exec fr m = (m.cells.read m.ws id, m) := by
  simp only [operand, exec_bind, exec_get]
  exact exec_lift _

/-- `compute` changes only the warning log of the workspace. -/
theorem compute_ws (pos : Nat) (op : OpEnv → OpM Unit) :
    ∃ l, ((compute pos op).exec fr m).2.ws = { m.ws with warnings := l } := by
  simp only [compute, takeMachine, exec_bind, exec_read, exec_modifyGet]
  split
  rename_i r s _
  refine ⟨s.log, ?_⟩
  cases r <;> rfl

/-- Every run of `x` in `fr` from a machine whose workspace satisfies `P` ends in a machine whose
workspace satisfies `P`, whether `x` returns or fails. -/
def Stays (fr : Frame) (P : Workspace → Prop) (x : EvalM α) : Prop :=
  ∀ m, P m.ws → P (x.exec fr m).2.ws

/-- `P` does not look at the warning log. -/
def LogBlind (P : Workspace → Prop) : Prop := ∀ ws l, P ws → P { ws with warnings := l }

namespace Stays

variable {P : Workspace → Prop} {x : EvalM α} {f : α → EvalM β}

/-- A step that leaves the workspace as it is keeps every `P`. -/
theorem of_ws (h : ∀ m, (x.exec fr m).2.ws = m.ws) : Stays fr P x := fun m hm => (h m) ▸ hm

protected theorem pure (a : α) : Stays fr P (pure a) := of_ws fun _ => rfl

protected theorem throw (e : EvalError) : Stays fr P (throw e : EvalM α) := of_ws fun _ => rfl

protected theorem read : Stays fr P read := of_ws fun _ => rfl

protected theorem get : Stays fr P get := of_ws fun _ => rfl

theorem fail (e : Fault) : Stays fr P (fail e : EvalM α) := of_ws fun _ => rfl

theorem lift (r : Except EvalError α) : Stays fr P (lift r) := of_ws fun _ => by rw [exec_lift]

theorem workspace : Stays fr P workspace := of_ws fun _ => rfl

theorem operand (id : Nat) : Stays fr P (operand id) := of_ws fun _ => by rw [exec_operand]

theorem modifyCells (g : CellStore → CellStore × α) : Stays fr P (modifyCells g) :=
  of_ws fun _ => rfl

theorem literal (pos : Nat) (v : Value) : Stays fr P (literal pos v) := modifyCells _

theorem bindCell (pos : Nat) (h : Handle) (k : ValueKind) (r : Role) :
    Stays fr P (bindCell pos h k r) :=
  modifyCells _

theorem share (pos target : Nat) : Stays fr P (share pos target) := modifyCells _

theorem compute (hP : LogBlind P) (pos : Nat) (op : OpEnv → OpM Unit) :
    Stays fr P (compute pos op) := by
  intro m hm
  obtain ⟨l, hl⟩ := @compute_ws fr m pos op
  rw [hl]
  exact hP _ _ hm

protected theorem bind (hx : Stays fr P x) (hf : ∀ a, Stays fr P (f a)) : Stays fr P (x >>= f) := by
  intro m hm
  rw [exec_bind]
  cases h : (x.exec fr m).1 with
  | ok a => exact hf a _ (hx m hm)
  | error e => exact hx m hm

protected theorem ite {c : Prop} [Decidable c] {y : EvalM α} (hx : Stays fr P x)
    (hy : Stays fr P y) : Stays fr P (if c then x else y) := by
  split
  · exact hx
  · exact hy

/-- A step after `read` sees the frame itself. -/
theorem read_bind {f : Frame → EvalM β} (h : Stays fr P (f fr)) : Stays fr P (read >>= f) := by
  intro m hm
  rw [exec_bind]
  exact h m hm

/-- A step after `workspace` sees the workspace of the machine it runs from. -/
theorem workspace_bind {f : Workspace → EvalM β} (h : ∀ m, P m.ws → P ((f m.ws).exec fr m).2.ws) :
    Stays fr P (EvalM.workspace >>= f) := by
  intro m hm
  rw [exec_bind]
  exact h m hm

protected theorem tryCatch {h : EvalError → EvalM α} (hx : Stays fr P x)
    (hh : ∀ e, Stays fr P (h e)) : Stays fr P (tryCatch x h) := by
  intro m hm
  rw [exec_tryCatch]
  cases hr : (x.exec fr m).1 with
  | ok a => exact hx m hm
  | error e => exact hh e _ (hx m hm)

protected theorem map (g : α → β) (hx : Stays fr P x) : Stays fr P (g <$> x) := by
  rw [map_eq_pure_bind]
  exact hx.bind fun _ => Stays.pure _

protected theorem mapM : ∀ (l : List α), (∀ a ∈ l, Stays fr P (f a)) → Stays fr P (l.mapM f)
  | [], _ => Stays.pure _
  | a :: l, h => by
    rw [List.mapM_cons]
    exact (h a List.mem_cons_self).bind fun _ =>
      (Stays.mapM l fun b hb => h b (List.mem_cons_of_mem _ hb)).bind fun _ => Stays.pure _

theorem modifyWorkspace {g : Workspace → Workspace} (h : ∀ ws, P ws → P (g ws)) :
    Stays fr P (modifyWorkspace g) :=
  fun m hm => h m.ws hm

protected theorem forIn {γ : Type} {g : γ → β → EvalM (ForInStep β)} :
    ∀ (l : List γ) (b : β), (∀ c ∈ l, ∀ b, Stays fr P (g c b)) → Stays fr P (forIn l b g)
  | [], _, _ => Stays.pure _
  | c :: l, b, h => by
    rw [List.forIn_cons]
    refine (h c List.mem_cons_self b).bind fun r => ?_
    cases r with
    | done b' => exact Stays.pure _
    | yield b' => exact Stays.forIn l b' fun d hd => h d (List.mem_cons_of_mem _ hd)

protected theorem foldlM {g : β → α → EvalM β} :
    ∀ (l : List α) (b : β), (∀ b, ∀ a ∈ l, Stays fr P (g b a)) → Stays fr P (l.foldlM g b)
  | [], _, _ => Stays.pure _
  | a :: l, b, h => by
    rw [List.foldlM_cons]
    exact (h b a List.mem_cons_self).bind fun b' =>
      Stays.foldlM l b' fun c d hd => h c d (List.mem_cons_of_mem _ hd)

end Stays

/-- A run of `x` from a workspace satisfying `P` that fails ends in one satisfying `Q`. -/
def FailsIn (fr : Frame) (P Q : Workspace → Prop) (x : EvalM α) : Prop :=
  ∀ m e, P m.ws → (x.exec fr m).1 = .error e → Q (x.exec fr m).2.ws

namespace FailsIn

variable {P Q : Workspace → Prop} {x : EvalM α} {f : α → EvalM β}

/-- A step that keeps `P` in every run, where `P` gives `Q`. -/
theorem of_stays (hx : Stays fr P x) (hPQ : ∀ ws, P ws → Q ws) : FailsIn fr P Q x :=
  fun m _ hm _ => hPQ _ (hx m hm)

/-- A step that keeps `P` in every run, then a step whose failures end in `Q`. -/
protected theorem bind (hx : Stays fr P x) (hPQ : ∀ ws, P ws → Q ws) (hf : ∀ a, FailsIn fr P Q (f a)) :
    FailsIn fr P Q (x >>= f) := by
  intro m e hm he
  rw [exec_bind] at he ⊢
  cases h : (x.exec fr m).1 with
  | ok a =>
    rw [h] at he
    exact hf a _ e (hx m hm) he
  | error e' => exact hPQ _ (hx m hm)

/-- A step whose failures end in `Q`, then a result computed from its value. -/
theorem bind_pure (hx : FailsIn fr P Q x) (g : α → β) :
    FailsIn fr P Q (x >>= fun a => pure (g a)) := by
  intro m e hm he
  rw [exec_bind] at he ⊢
  cases h : (x.exec fr m).1 with
  | ok a =>
    rw [h] at he
    simp at he
  | error e' => exact hx m e' hm h

end FailsIn

/-- Every run of `x` from a workspace satisfying `P` that returns `a` ends in one satisfying
`Q a`. -/
def Triple (fr : Frame) (P : Workspace → Prop) (x : EvalM α) (Q : α → Workspace → Prop) : Prop :=
  ∀ m, P m.ws → ∀ a, (x.exec fr m).1 = .ok a → Q a (x.exec fr m).2.ws

namespace Triple

variable {P : Workspace → Prop} {x : EvalM α} {f : α → EvalM β} {Q R : α → Workspace → Prop}

theorem of_stays (h : Stays fr P x) : Triple fr P x fun _ => P :=
  fun m hm _ _ => h m hm

protected theorem pure (a : α) (h : ∀ ws, P ws → Q a ws) : Triple fr P (pure a) Q := by
  intro m hm b hb
  cases hb
  exact h _ hm

protected theorem bind {Q : β → Workspace → Prop} (hx : Triple fr P x R)
    (hf : ∀ a, Triple fr (R a) (f a) Q) : Triple fr P (x >>= f) Q := by
  intro m hm b hb
  rw [exec_bind] at hb ⊢
  cases h : (x.exec fr m).1 with
  | ok a =>
    rw [h] at hb
    exact hf a _ (hx m hm a h) b hb
  | error e =>
    rw [h] at hb
    cases hb

/-- A triple may fix the workspace it starts from. -/
theorem of_forall (h : ∀ ws₀, P ws₀ → Triple fr (· = ws₀) x Q) : Triple fr P x Q :=
  fun m hm a ha => h m.ws hm m rfl a ha

theorem weaken {P' : Workspace → Prop} (h : Triple fr P' x Q) (hP : ∀ ws, P ws → P' ws) :
    Triple fr P x Q :=
  fun m hm a ha => h m (hP _ hm) a ha

theorem conseq {Q' : α → Workspace → Prop} (h : Triple fr P x Q) (hQ : ∀ a ws, Q a ws → Q' a ws) :
    Triple fr P x Q' :=
  fun m hm a ha => hQ a _ (h m hm a ha)

/-- A failure returns nothing. -/
theorem fail (e : Fault) : Triple fr P (fail e : EvalM α) Q := by
  intro m _ a ha
  cases ha

protected theorem throw (e : EvalError) : Triple fr P (throw e : EvalM α) Q := by
  intro m _ a ha
  cases ha

/-- A step after `read` sees the frame itself. -/
theorem read_bind {Q : β → Workspace → Prop} {f : Frame → EvalM β} (h : Triple fr P (f fr) Q) :
    Triple fr P (read >>= f) Q := by
  intro m hm b hb
  rw [exec_bind] at hb ⊢
  exact h m hm b hb

/-- A step after `workspace` sees the workspace it starts from. -/
theorem workspace_bind {Q : β → Workspace → Prop} {f : Workspace → EvalM β}
    (h : ∀ ws, P ws → Triple fr (· = ws) (f ws) Q) : Triple fr P (EvalM.workspace >>= f) Q := by
  intro m hm b hb
  rw [exec_bind] at hb ⊢
  exact h m.ws hm m rfl b hb

/-- A step after `modifyWorkspace g` starts from the changed workspace. -/
theorem modifyWorkspace_bind {Q : β → Workspace → Prop} {g : Workspace → Workspace}
    {f : Unit → EvalM β} (h : ∀ ws, P ws → Triple fr (· = g ws) (f ()) Q) :
    Triple fr P (modifyWorkspace g >>= f) Q := by
  intro m hm b hb
  rw [exec_bind] at hb ⊢
  exact h m.ws hm _ rfl b hb

/-- A step that leaves the workspace as it is, and returns what `Q` asks of the value. -/
theorem of_ws (h : ∀ m, (x.exec fr m).2.ws = m.ws) (hQ : ∀ a ws, P ws → Q a ws) :
    Triple fr P x Q :=
  fun m hm a _ => hQ a _ ((h m).symm ▸ hm)

end Triple

/-- Every run of `x` from a workspace satisfying `P` returns, with a value `a` and a workspace
satisfying `Q a`. -/
def Total (fr : Frame) (P : Workspace → Prop) (x : EvalM α) (Q : α → Workspace → Prop) : Prop :=
  ∀ m, P m.ws → ∃ a, (x.exec fr m).1 = .ok a ∧ Q a (x.exec fr m).2.ws

namespace Total

variable {P : Workspace → Prop} {x : EvalM α} {f : α → EvalM β} {Q R : α → Workspace → Prop}

protected theorem pure (a : α) (h : ∀ ws, P ws → Q a ws) : Total fr P (pure a) Q :=
  fun _ hm => ⟨a, rfl, h _ hm⟩

protected theorem bind {Q : β → Workspace → Prop} (hx : Total fr P x R)
    (hf : ∀ a, Total fr (R a) (f a) Q) : Total fr P (x >>= f) Q := by
  intro m hm
  obtain ⟨a, ha, hR⟩ := hx m hm
  rw [exec_bind, ha]
  exact hf a _ hR

/-- A fold whose step takes the invariant of the items left to that of the rest. -/
protected theorem foldlM {γ : Type} {g : β → γ → EvalM β} (I : List γ → β → Workspace → Prop)
    (hg : ∀ c rest b, Total fr (I (c :: rest) b) (g b c) (I rest)) :
    ∀ (l : List γ) (b : β), Total fr (I l b) (l.foldlM g b) (I [])
  | [], b => Total.pure b fun _ h => h
  | c :: rest, b => by
    rw [List.foldlM_cons]
    exact (hg c rest b).bind fun b' => Total.foldlM I hg rest b'

/-- A step that always returns, then a step that keeps `S` in every run: every run of the two
ends in `S`. -/
theorem bind_stays {S : Workspace → Prop} (hx : Total fr P x Q) (hQ : ∀ a ws, Q a ws → S ws)
    (hf : ∀ a, Stays fr S (f a)) (m : Machine) (hm : P m.ws) : S ((x >>= f).exec fr m).2.ws := by
  obtain ⟨a, ha, hQa⟩ := hx m hm
  rw [exec_bind, ha]
  exact hf a _ (hQ a _ hQa)

end Total

end EvalM

namespace Walk

/-- Binding arguments keeps every property of steps that `pure` has and `bind` keeps, once each
caught borrow and each caught evaluation of an argument has it. -/
theorem bindArgs_closed {K : {α : Type} → EvalM α → Prop}
    (hpure : ∀ {α : Type} (a : α), K (pure a))
    (hbind : ∀ {α β : Type} {x : EvalM α} {f : α → EvalM β}, K x → (∀ a, K (f a)) → K (x >>= f))
    (hborrow : ∀ p node, K (attempt (borrow p node))) {child : Nat → EvalM Nat} :
    ∀ (ps : List (Param × Nat)),
      (∀ pn ∈ ps, K (attempt (do converted (← child pn.2) pn.1.declared))) →
      ∀ (locals : VarTable) (lent : List (String × Lent)), K (bindArgs child ps locals lent)
  | [], _, _, _ => hpure _
  | (p, node) :: rest, harg, locals, lent => by
    have hrest : ∀ pn ∈ rest, K (attempt (do converted (← child pn.2) pn.1.declared)) :=
      fun pn hpn => harg pn (List.mem_cons_of_mem _ hpn)
    rw [bindArgs]
    split
    · exact hpure _
    dsimp only
    -- a pointer argument is borrowed, a value argument evaluated; both ways meet in one join
    split
    · refine hbind (hborrow p node) fun r => ?_
      simp only [pure_bind]
      split
      · split
        · exact hpure _
        · exact bindArgs_closed hpure hbind hborrow rest hrest _ _
      · exact hpure _
    · refine hbind (harg (p, node) List.mem_cons_self) fun r => ?_
      simp only [pure_bind]
      split
      · exact hpure _
      · split
        · exact hpure _
        · exact bindArgs_closed hpure hbind hborrow rest hrest _ _

end Walk

end SeriesCalc
