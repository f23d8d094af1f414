import SeriesCalc.Proofs.Values.Builtins
import SeriesCalc.Proofs.Values.Stores
import SeriesCalc.Proofs.Exec
import SeriesCalc.Eval.Walk

/-!
# Walks store accepted values

`EvalM.Preserves c fr R x`: every run of `x` in the frame `fr` from a machine whose stored
values satisfy `c` throughout (`Machine.Every`) ends in such a machine, whether it returns or
fails, and a value it returns satisfies `R`. A failed step keeps what it wrote before failing,
so the fact is stated of every run.

For a check that evaluation keeps (`Value.Invariant c`), every step of a walk preserves the
stores:

* reading a cell gives an accepted operand (`Preserves.operand`);
* an operator run by `compute` reads accepted operands and leaves an accepted value in its
  position's cell (`Preserves.compute`, from the operator's `Scratch.Keeps`);
* the cell moves (literals, aliases, shares) store no value that was not accepted;
* a call binds accepted locals, runs the body through the frame and hands the lent values
  back: it preserves the stores when the frame's way of running bodies does (`InvokeKeeps`).

So does every position of a tree (`evalNode_preserves`, a strong induction on the position
like the walk itself).
-/

namespace SeriesCalc

variable {c : Value → Bool}

/-- Running a function body keeps the stores accepted: from a workspace and a function copy
whose stored values are accepted, it ends with such a workspace and copy, and the value it
gives back is accepted. -/
def InvokeKeeps (c : Value → Bool)
    (invoke : Workspace → UserFunction → Workspace × UserFunction × Except EvalError Value) : Prop :=
  ∀ ws fn, ws.Every c → fn.Every c →
    (invoke ws fn).1.Every c ∧ (invoke ws fn).2.1.Every c ∧
      ∀ v, (invoke ws fn).2.2 = .ok v → v.throughout c = true

namespace EvalM

variable {α β : Type}

/-- Every run of `x` in `fr` from a machine whose stored values satisfy `c` throughout ends in
one whose stored values do, and every value `x` returns satisfies `R`. -/
def Preserves (c : Value → Bool) (fr : Frame) (R : α → Prop) (x : EvalM α) : Prop :=
  ∀ m : Machine, m.Every c → (x.exec fr m).2.Every c ∧ ∀ a, (x.exec fr m).1 = .ok a → R a

namespace Preserves

variable {fr : Frame} {R R' : α → Prop} {S : β → Prop} {x : EvalM α} {f : α → EvalM β}

theorem mono (h : Preserves c fr R x) (hR : ∀ a, R a → R' a) : Preserves c fr R' x :=
  fun m hm => ⟨(h m hm).1, fun a ha => hR a ((h m hm).2 a ha)⟩

/-- A step that leaves the machine as it is. -/
theorem of_machine (hs : ∀ m, (x.exec fr m).2 = m)
    (hR : ∀ m, m.Every c → ∀ a, (x.exec fr m).1 = .ok a → R a) : Preserves c fr R x :=
  fun m hm => ⟨by rw [hs m]; exact hm, hR m hm⟩

protected theorem pure {a : α} (h : R a) : Preserves c fr R (pure a) :=
  of_machine (fun _ => rfl) fun _ _ b hb => by
    cases hb
    exact h

protected theorem throw (e : EvalError) : Preserves c fr R (throw e : EvalM α) :=
  of_machine (fun _ => rfl) fun _ _ _ hb => by cases hb

theorem fail (e : Fault) : Preserves c fr R (EvalM.fail e : EvalM α) := Preserves.throw _

theorem lift {r : Except EvalError α} (h : ∀ a, r = .ok a → R a) : Preserves c fr R (EvalM.lift r) :=
  of_machine (fun _ => by rw [exec_lift]) fun _ _ a ha => by
    rw [exec_lift] at ha
    exact h a ha

/-- Reading the machine gives one whose stored values are accepted. -/
protected theorem get : Preserves c fr (fun m => m.Every c) get :=
  of_machine (fun _ => rfl) fun _ hm a ha => by
    cases ha
    exact hm

theorem workspace : Preserves c fr (fun ws => ws.Every c) EvalM.workspace :=
  of_machine (fun _ => rfl) fun _ hm a ha => by
    cases ha
    exact hm.ws

/-- Reading a cell gives an accepted operand. -/
theorem operand (hc : Value.Invariant c) (id : Nat) :
    Preserves c fr (fun o => o.value.throughout c = true) (EvalM.operand id) :=
  of_machine (fun _ => by rw [exec_operand]) fun m hm o ho => by
    rw [exec_operand] at ho
    exact hm.cells.read hc hm.ws.vars ho

protected theorem bind (hx : Preserves c fr R x) (hf : ∀ a, R a → Preserves c fr S (f a)) :
    Preserves c fr S (x >>= f) := by
  intro m hm
  rw [exec_bind]
  obtain ⟨hm', hR⟩ := hx m hm
  cases h : (x.exec fr m).1 with
  | ok a => exact hf a (hR a h) _ hm'
  | error e => exact ⟨hm', fun _ hb => by cases hb⟩

/-- A step after `read` sees the frame itself. -/
theorem read_bind {f : Frame → EvalM β} (h : Preserves c fr S (f fr)) :
    Preserves c fr S (read >>= f) := by
  intro m hm
  rw [exec_bind]
  exact h m hm

protected theorem ite {p : Prop} [Decidable p] {y : EvalM α} (hx : Preserves c fr R x)
    (hy : Preserves c fr R y) : Preserves c fr R (if p then x else y) := by
  split
  · exact hx
  · exact hy

protected theorem tryCatch {h : EvalError → EvalM α} (hx : Preserves c fr R x)
    (hh : ∀ e, Preserves c fr R (h e)) : Preserves c fr R (tryCatch x h) := by
  intro m hm
  rw [exec_tryCatch]
  obtain ⟨hm', hR⟩ := hx m hm
  cases hr : (x.exec fr m).1 with
  | ok a => exact ⟨hm', fun b hb => by
      cases hb
      exact hR a hr⟩
  | error e => exact hh e _ hm'

/-- A step whose failure is caught returns what the step returns, or the failure. -/
theorem attempt (hx : Preserves c fr R x) :
    Preserves c fr (fun r => ∀ a, r = .ok a → R a) (Walk.attempt x) := by
  unfold Walk.attempt
  refine Preserves.tryCatch ?_ fun e => ?_
  · rw [map_eq_pure_bind]
    exact hx.bind fun a ha => Preserves.pure fun b hb => by
      cases hb
      exact ha
  · split
    · exact Preserves.throw _
    · exact Preserves.pure fun _ hb => by cases hb

/-- Every element of a mapped list satisfies what each call returns. -/
protected theorem mapM {g : α → EvalM β} :
    ∀ (l : List α), (∀ a ∈ l, Preserves c fr S (g a)) →
      Preserves c fr (fun bs => ∀ b ∈ bs, S b) (l.mapM g)
  | [], _ => Preserves.pure (by simp)
  | a :: l, h => by
    rw [List.mapM_cons]
    refine (h a List.mem_cons_self).bind fun b hb => ?_
    refine (Preserves.mapM l fun a' ha' => h a' (List.mem_cons_of_mem _ ha')).bind fun bs hbs => ?_
    exact Preserves.pure fun b' hb' => by
      rcases List.mem_cons.1 hb' with rfl | hb'
      · exact hb
      · exact hbs b' hb'

protected theorem optionMapM {g : α → EvalM β} :
    ∀ (o : Option α), (∀ a ∈ o, Preserves c fr S (g a)) →
      Preserves c fr (fun _ => True) (o.mapM g)
  | none, _ => Preserves.pure trivial
  | some a, h => (h a rfl).bind fun _ _ => Preserves.pure trivial

/-- A fold whose steps keep an invariant of the accumulator. -/
protected theorem foldlM {I : β → Prop} {g : β → α → EvalM β} :
    ∀ (l : List α) (b : β), I b → (∀ b, I b → ∀ a ∈ l, Preserves c fr I (g b a)) →
      Preserves c fr I (l.foldlM g b)
  | [], _, hb, _ => Preserves.pure hb
  | a :: l, b, hb, h => by
    rw [List.foldlM_cons]
    exact (h b hb a List.mem_cons_self).bind fun b' hb' =>
      Preserves.foldlM l b' hb' fun d hd e he => h d hd e (List.mem_cons_of_mem _ he)

protected theorem forIn {γ : Type} {g : γ → β → EvalM (ForInStep β)} :
    ∀ (l : List γ) (b : β), (∀ d ∈ l, ∀ b, Preserves c fr (fun _ => True) (g d b)) →
      Preserves c fr (fun _ => True) (forIn l b g)
  | [], _, _ => Preserves.pure trivial
  | d :: l, b, h => by
    rw [List.forIn_cons]
    refine (h d List.mem_cons_self b).bind fun r _ => ?_
    cases r with
    | done b' => exact Preserves.pure trivial
    | yield b' => exact Preserves.forIn l b' fun e he => h e (List.mem_cons_of_mem _ he)

theorem modifyWorkspace {g : Workspace → Workspace} (h : ∀ ws, ws.Every c → (g ws).Every c) :
    Preserves c fr (fun _ => True) (EvalM.modifyWorkspace g) :=
  fun m hm => by
    rw [exec_modifyWorkspace]
    exact ⟨⟨h _ hm.ws, hm.cells⟩, fun _ _ => trivial⟩

theorem modifyCells {g : CellStore → CellStore × α}
    (h : ∀ s, s.Every c → (g s).1.Every c ∧ R (g s).2) : Preserves c fr R (EvalM.modifyCells g) :=
  fun m hm => by
    rw [exec_modifyCells]
    obtain ⟨hs, hR⟩ := h _ hm.cells
    exact ⟨⟨hm.ws, hs⟩, fun a ha => by
      cases ha
      exact hR⟩

/-! ### Cell operations -/

theorem literal (pos : Nat) {v : Value} (hv : v.throughout c = true) :
    Preserves c fr (fun _ => True) (EvalM.literal pos v) :=
  modifyCells fun _ hs => ⟨CellStore.Every.literal hs pos hv, trivial⟩

theorem bindCell (pos : Nat) (hd : Handle) (k : ValueKind) (r : Role) :
    Preserves c fr (fun _ => True) (EvalM.bindCell pos hd k r) :=
  modifyCells fun _ hs => ⟨hs.bind pos hd k r, trivial⟩

theorem share (pos target : Nat) : Preserves c fr (fun _ => True) (EvalM.share pos target) :=
  modifyCells fun _ hs => ⟨hs.share pos target, trivial⟩

/-- Moving an owned value out of a cell gives an accepted value. -/
theorem takeOwned (hc : Value.Invariant c) (id : Nat) :
    Preserves c fr (fun v? => ∀ v, v? = some v → v.throughout c = true)
      (EvalM.modifyCells fun s => s.takeOwned id) :=
  modifyCells fun _ hs => hs.takeOwned hc.null_throughout id

/-- An operator that keeps its cell, run into the position's own cell. -/
theorem compute (hc : Value.Invariant c) {op : OpEnv → OpM Unit}
    (hop : ∀ env, env.Reads c → Scratch.Keeps c (op env)) (pos : Nat) :
    Preserves c fr (fun _ => True) (EvalM.compute pos op) := by
  intro m hm
  -- the operator works on the position's own cell, lent to it, and reads the others
  obtain ⟨hlent, hout⟩ := (hm.cells.writable hc.null_throughout pos).lend hc.null_throughout
    (m.cells.writable pos).2
  simp only [EvalM.compute, takeMachine, exec_bind, exec_read, exec_modifyGet]
  split
  rename_i r s hrun
  have hreads : OpEnv.Reads c
      { ds := m.ws.dataset, target := fr.target,
        read := ((m.cells.writable pos).1.lend (m.cells.writable pos).2).1.read m.ws } :=
    fun _ _ h => hlent.read hc hm.ws.vars h
  have hcell : s.cell.throughout c = true := by
    have h := hop _ hreads ⟨_, m.ws.warnings⟩ hout
    rw [Scratch.exec, hrun] at h
    exact h
  -- the machine after it: the warning log changed, the lent cell given back
  refine ⟨?_, fun _ _ => trivial⟩
  rcases r with e | ⟨⟨⟩⟩ <;> simp only [exec_bind, exec_set, exec_pure, exec_throw] <;>
    exact ⟨⟨hm.ws.vars, hm.ws.functions⟩, hlent.restore _ hcell⟩

end Preserves

end EvalM

theorem Value.isNull_eq_false {v : Value} (h : v ≠ .null) : v.isNull = false := by
  cases v with
  | null => exact absurd rfl h
  | _ => rfl

/-- The matrix a matrix conditional picks into has the condition's shape and fills it. -/
theorem Walk.selectMatrix_sound (cond a b : Matrix) : (Walk.selectMatrix cond a b).Sound := by
  unfold Walk.selectMatrix
  dsimp only
  refine Matrix.Sound.of_layout ?_ (Matrix.SameLayout.foldl (fun m k => Matrix.sameLayout_setAt m k _) _ _)
  split
  · exact (Matrix.sound_zeros _ _).of_layout (Matrix.sameLayout_promote _)
  · exact Matrix.sound_zeros _ _

namespace Walk

open EvalM Scratch

variable {fr : Frame}

/-! ### Operator bodies of the walk -/

section Operators

variable (env : OpEnv)

theorem branchColumn_keeps (id? : Option Nat) : Keeps c (branchColumn env id?) := by
  unfold branchColumn
  split
  · exact Keeps.pure _
  · refine (OpM.read_keeps env _).bind' fun o => ?_
    split
    · exact Keeps.pure _
    · exact OpM.fail_keeps _

variable (hc : Value.Invariant c) {env} (hr : env.Reads c)

include hc hr

/-- `a op b` on two cells. -/
theorem binary_keeps (op : BinaryOp) (a b : Nat) :
    Keeps c (do Binary.apply env op (← OpM.read env a) (← OpM.read env b)) :=
  (OpM.read_keeps env a).bind (OpM.read_yields hr a) fun _ ha =>
    (OpM.read_keeps env b).bind (OpM.read_yields hr b) fun _ hb => Binary.apply_keeps hc env op ha hb

theorem unary_keeps (op : UnaryOp) (a : Nat) : Keeps c (do Numeric.unary env op (← OpM.read env a)) :=
  (OpM.read_keeps env a).bind (OpM.read_yields hr a) fun _ ha => Numeric.unary_keeps hc env op ha

/-- A builtin on the values of its argument cells. -/
theorem builtin_keeps (b : Builtin) (ids : List Nat) :
    Keeps c (do b.call env (← ids.mapM (OpM.read env))) :=
  (Keeps.mapM (fun id => OpM.read_keeps env id) ids).bind
    (Yields.mapM ids fun id _ => OpM.read_yields hr id) fun _ hargs => Builtin.call_keeps hc env b hargs

end Operators

/-! ### Nodes -/

theorem ident_preserves (pos : Nat) (name : String) :
    Preserves c fr (fun _ => True) (ident pos name) := by
  unfold ident
  refine Preserves.workspace.bind fun ws _ => ?_
  split
  · exact Preserves.bindCell _ _ _ _
  · split
    · exact Preserves.bindCell _ _ _ _
    · exact Preserves.fail _

variable (hc : Value.Invariant c) {child : Nat → EvalM Nat}
  (hchild : ∀ k, Preserves c fr (fun _ => True) (child k))

include hc hchild

theorem logical_preserves (pos : Nat) (op : BinaryOp) (l r : Nat) :
    Preserves c fr (fun _ => True) (logical child pos op l r) := by
  unfold logical
  refine (hchild l).bind fun a _ => (Preserves.operand hc a).bind fun o _ => ?_
  dsimp only
  split
  · split
    · exact Preserves.share _ _
    · exact Preserves.compute hc (fun _ _ => OpM.put_keeps (hc.scalar_throughout _)) _
  · exact (hchild r).bind fun b _ => Preserves.compute hc (fun _ hr => binary_keeps hc hr op a b) _

theorem seriesConditional_preserves (pos k : Nat) (sample : Array Float) (thenB elseB : Nat) :
    Preserves c fr (fun _ => True) (seriesConditional child pos k sample thenB elseB) := by
  unfold seriesConditional
  refine Preserves.workspace.bind fun ws _ => ?_
  extract_lets anyTrue anyFalse anyNA shareable combine one
  -- a combined series is read from the condition and the branches, and written once
  have hcombine : ∀ a b, Preserves c fr (fun _ => True) (combine a b) := by
    intro a b
    refine Preserves.compute hc (fun env _ => ?_) _
    refine (OpM.read_keeps env _).bind' fun cond => ?_
    extract_lets write
    have hwrite : ∀ xs, Keeps c (write xs) := fun _ =>
      (branchColumn_keeps env a).bind' fun _ => (branchColumn_keeps env b).bind' fun _ =>
        (OpM.liftFault_keeps _).bind' fun _ => OpM.put_keeps (hc.series_throughout _)
    split
    · exact (Keeps.pure _).bind' hwrite
    · exact (OpM.fail_keeps _).bind' hwrite
  have hone : ∀ branch isThen, Preserves c fr (fun _ => True) (one branch isThen) := by
    intro branch isThen
    dsimp only [one]
    refine (hchild branch).bind fun id _ => (Preserves.operand hc id).bind fun o _ => ?_
    exact Preserves.ite (Preserves.share _ _) (Preserves.ite (hcombine _ _) (hcombine _ _))
  -- which branches the sample takes decides what is evaluated
  clear_value anyTrue anyFalse
  split
  · exact Preserves.compute hc (fun _ _ => OpM.put_keeps (hc.series_throughout _)) _
  · exact hone _ _
  · exact hone _ _
  · exact (hchild thenB).bind fun _ _ => (hchild elseB).bind fun _ _ => hcombine _ _

theorem conditional_preserves (pos cond thenB elseB : Nat) :
    Preserves c fr (fun _ => True) (conditional child pos cond thenB elseB) := by
  unfold conditional
  refine (hchild cond).bind fun k _ => (Preserves.operand hc k).bind fun o _ => ?_
  split
  · split
    · exact (hchild thenB).bind fun _ _ => Preserves.share _ _
    · exact (hchild elseB).bind fun _ _ => Preserves.share _ _
    · exact Preserves.compute hc (fun _ _ => OpM.put_keeps (hc.scalar_throughout _)) _
  · split
    · exact Preserves.workspace.bind fun _ _ => (Preserves.lift fun _ _ => trivial).bind fun _ _ =>
        seriesConditional_preserves hc hchild _ _ _ _ _
    · -- a matrix condition picks per element into a matrix of its own shape
      refine (hchild thenB).bind fun a _ => (hchild elseB).bind fun b _ =>
        Preserves.compute hc (fun env _ => ?_) _
      refine (OpM.read_keeps env _).bind' fun cond => ?_
      extract_lets pick
      have hpick : ∀ cm, Keeps c (pick cm) := fun _ =>
        (OpM.read_keeps env _).bind' fun _ => (OpM.lift_keeps _).bind' fun _ =>
          (OpM.read_keeps env _).bind' fun _ => (OpM.lift_keeps _).bind' fun _ =>
            OpM.put_keeps (hc.matrix_throughout (selectMatrix_sound _ _ _))
      split
      · exact (Keeps.pure _).bind' hpick
      · exact (OpM.fail_keeps _).bind' hpick
    · exact Preserves.fail _

theorem matrixLiteral_preserves (pos : Nat) (rows : Children) :
    Preserves c fr (fun _ => True) (matrixLiteral child pos rows) := by
  unfold matrixLiteral
  refine Preserves.read_bind (Preserves.bind (Preserves.mapM (S := fun _ => True) _ fun row _ => ?_)
    fun grid _ => Preserves.compute hc (fun env hr => ?_) _)
  · split
    · exact (Preserves.mapM _ fun k _ => hchild k).mono fun _ _ => trivial
    · exact Preserves.throw _
  · unfold matrixLiteralOp
    refine Keeps.bind (Keeps.foldlM (fun acc row => ?_) _ _)
      (Yields.foldlM (fun _ acc => (Value.matrix acc.1).throughout c = true) (fun row _ acc hacc => ?_) _ _
        (hc.matrix_throughout Matrix.sound_empty)) fun r hr => ?_
    · -- joining a row reads each element as a matrix; nothing writes the cell before the end
      unfold literalRow
      refine (Keeps.foldlM (fun acc' id => ?_) _ _).bind' fun joined => ?_
      · unfold literalElement
        refine (OpM.read_keeps env id).bind' fun o => (OpM.liftFault_keeps _).bind' fun m? => ?_
        split
        · exact (OpM.lift_keeps _).bind' fun _ => Keeps.pure _
        · exact OpM.fail_keeps _
      · obtain ⟨joined, hasSeries⟩ := joined
        exact (OpM.lift_keeps _).bind' fun _ => Keeps.pure _
    · -- a row joined side by side, then stacked under the rows before it
      unfold literalRow
      refine (Yields.foldlM (fun _ acc' => (Value.matrix acc'.1).throughout c = true)
        (fun id _ acc' hacc' => ?_) _ _ (hc.matrix_throughout Matrix.sound_empty)).bind
        fun joined hjoined => ?_
      · unfold literalElement
        refine (OpM.read_yields hr id).bind fun o ho => (asMatrix?_yields hc env.ds ho).bind fun m? hm => ?_
        split
        · exact (OpM.lift_yields fun j hj => hc.matrix_of_two hacc' (hm _ rfl) fun sa sb =>
            Linalg.hcat_sound sa sb hj).bind fun _ hj => Yields.pure hj
        · exact Yields.throw _
      · obtain ⟨joined, hasSeries⟩ := joined
        exact (OpM.lift_yields fun j hj => hc.matrix_of_two hacc hjoined fun sa sb =>
          Linalg.vcat_sound sa sb hj).bind fun _ hj => Yields.pure hj
    · -- a literal with a series only records the sample it spans
      obtain ⟨result, hasSeries⟩ := r
      refine OpM.put_keeps (hc.matrix_of_one hr fun hs => ?_)
      split
      · exact hs.of_layout (Matrix.sameLayout_span _ _)
      · exact hs

theorem listLiteral_preserves (pos : Nat) (elems : Children) :
    Preserves c fr (fun _ => True) (listLiteral child pos elems) := by
  unfold listLiteral
  refine Preserves.read_bind (((Preserves.mapM _ fun k _ => hchild k).mono fun _ _ => trivial).bind
    fun ids _ => Preserves.compute hc (fun env _ => ?_) _)
  -- a list holds series ids only; it is written empty first and whole at the end
  refine (OpM.put_keeps (hc.list_throughout _)).bind' fun _ =>
    (Keeps.foldlM (fun acc id => ?_) _ _).bind' fun _ => OpM.put_keeps (hc.list_throughout _)
  refine (OpM.read_keeps env id).bind' fun o => ?_
  split
  · exact Keeps.pure _
  · exact OpM.fail_keeps _
  · exact Keeps.pure _
  · split
    · exact Keeps.ite (Keeps.pure _) (OpM.fail_keeps _)
    · exact OpM.fail_keeps _

theorem bundleLiteral_preserves (pos : Nat) (pairs : Children) :
    Preserves c fr (fun _ => True) (bundleLiteral child pos pairs) := by
  unfold bundleLiteral
  refine Preserves.read_bind (Preserves.bind (Preserves.mapM (S := fun _ => True) _ fun chunk _ => ?_)
    fun entries _ => Preserves.compute hc (fun env hr => ?_) _)
  · split
    · split
      · exact (hchild _).bind fun _ _ => Preserves.pure trivial
      · exact Preserves.throw _
    · exact Preserves.throw _
  · -- each member is set in turn, and a null member is left out
    refine (OpM.put_keeps hc.bundle_nil_throughout).bind' fun _ => Keeps.bind
      (Keeps.foldlM (fun acc e => ?_) _ _)
      (Yields.foldlM (fun _ acc => (Value.bundle acc).throughout c = true) (fun e _ acc hacc => ?_) _ _
        hc.bundle_nil_throughout) fun out hout => OpM.put_keeps hout
    · obtain ⟨key, id⟩ := e
      refine (OpM.read_keeps env id).bind' fun o => ?_
      split
      · exact Keeps.pure _
      · exact Keeps.pure _
    · obtain ⟨key, id⟩ := e
      refine (OpM.read_yields hr id).bind fun o ho => ?_
      split
      · exact Yields.pure hacc
      · rename_i hnull
        exact Yields.pure (hc.insert_throughout hacc ho (Value.isNull_eq_false hnull))

theorem arrayLiteral_preserves (pos : Nat) (elems : Children) :
    Preserves c fr (fun _ => True) (arrayLiteral child pos elems) := by
  unfold arrayLiteral
  refine Preserves.read_bind (((Preserves.mapM _ fun k _ => hchild k).mono fun _ _ => trivial).bind
    fun ids _ => Preserves.compute hc (fun env hr => ?_) _)
  -- the first element fixes the kind, and each push checks the next one against it
  refine Keeps.bind (Keeps.foldlM (fun acc id => ?_) _ _)
    (Yields.foldlM (fun _ acc => acc.toValue.throughout c = true) (fun id _ acc hacc => ?_) _ _
      (hc.array_nil_throughout none)) fun out hout => OpM.put_keeps hout
  · refine (OpM.read_keeps env id).bind' fun o => Keeps.ite (OpM.fail_keeps _) ?_
    split
    · exact Keeps.pure _
    · exact OpM.fail_keeps _
  · refine (OpM.read_yields hr id).bind fun o ho => ?_
    split
    · exact Yields.throw _
    · split
      · rename_i e he
        exact Yields.pure (hc.push_throughout hacc ho he)
      · exact Yields.throw _

omit hchild in
/-- A range bound is read as an operand and checked to be a scalar. -/
theorem rangeBound_preserves (id : Nat) : Preserves c fr (fun _ => True) (do
    let o ← operand id
    match o.scalar? with
    | some x => pure x
    | none => fail (.typeMismatch "scalar range bound" o.kind) : EvalM Float) :=
  (Preserves.operand hc id).bind fun o _ => by
    split
    · exact Preserves.pure trivial
    · exact Preserves.fail _

theorem subscripts_preserves (args : List Nat) :
    Preserves c fr (fun _ => True) (subscripts child args) := by
  unfold subscripts
  refine Preserves.read_bind ((Preserves.mapM (S := fun _ => True) _ fun a _ => ?_).mono fun _ _ => trivial)
  split
  · exact Preserves.pure trivial
  · exact Preserves.pure trivial
  · exact (hchild _).bind fun _ _ => (hchild _).bind fun _ _ => (rangeBound_preserves hc _).bind fun _ _ =>
      (rangeBound_preserves hc _).bind fun _ _ => Preserves.pure trivial
  · refine (hchild a).bind fun id _ => (Preserves.operand hc id).bind fun o _ =>
      Preserves.ite (Preserves.pure trivial) ?_
    split
    · exact Preserves.pure trivial
    · exact Preserves.pure trivial
    · exact Preserves.fail _

omit hchild in
/-- Every way through a member lookup ends in the same join: the bound cell, or a selection
computed from the base. -/
theorem accessJoin_preserves (pos b : Nat) (subs : List Subscript) (bound? : Option Nat) :
    Preserves c fr (fun _ => True) (match bound? with
      | some id => pure id
      | none => compute pos fun env => do
        let base ← OpM.read env b
        OpM.put (← OpM.lift (indexValue base.value subs env.ds))) := by
  split
  · exact Preserves.pure trivial
  · refine Preserves.compute hc (fun env hr => ?_) _
    exact (OpM.read_keeps env b).bind (OpM.read_yields hr b) fun _ hbase =>
      (OpM.lift_keeps _).bind (OpM.lift_yields fun _ h => hc.indexValue_throughout hbase h)
        fun _ hv => OpM.put_keeps hv

omit hchild in
theorem access_preserves (pos b : Nat) (subs : List Subscript) :
    Preserves c fr (fun _ => True) (access pos b subs) := by
  unfold access
  have hjoin := fun bound? => (accessJoin_preserves hc pos b subs bound? : Preserves c fr _ _)
  refine (Preserves.operand hc b).bind fun base _ => ?_
  split
  · exact (Preserves.lift fun _ _ => trivial).bind fun _ _ => Preserves.bindCell _ _ _ _
  · refine (Preserves.lift (R := fun _ => True) fun _ _ => trivial).bind fun _ _ =>
      Preserves.get.bind fun m _ => ?_
    dsimp only
    split
    · exact (Preserves.lift fun _ _ => trivial).bind fun _ _ =>
        Preserves.ite ((Preserves.pure (R := fun _ => True) trivial).bind fun _ _ => hjoin _)
          ((Preserves.bindCell _ _ _ _).bind fun _ _ =>
            (Preserves.pure (R := fun _ => True) trivial).bind fun _ _ => hjoin _)
    · exact (Preserves.pure (R := fun _ => True) trivial).bind fun _ _ => hjoin _

theorem lag_preserves (pos base k : Nat) :
    Preserves c fr (fun _ => True) (lag child pos base k) := by
  unfold lag
  refine (hchild base).bind fun b _ => (hchild k).bind fun kc _ => (Preserves.operand hc kc).bind
    fun ko _ => ?_
  extract_lets shift
  -- the shifted series is computed over the sample, whatever the offset read
  have hshift : ∀ offset, Preserves c fr (fun _ => True) (shift offset) := fun _ =>
    Preserves.compute hc (fun env _ => (OpM.read_keeps env b).bind' fun o => by
      split
      · exact (OpM.liftFault_keeps _).bind' fun _ => OpM.put_keeps (hc.series_throughout _)
      · exact OpM.fail_keeps _) _
  split
  · exact Preserves.ite ((Preserves.pure (R := fun _ => True) trivial).bind fun o _ => hshift o)
      ((Preserves.fail (R := fun _ => True) _).bind fun o _ => hshift o)
  · exact (Preserves.fail (R := fun _ => True) _).bind fun o _ => hshift o

/-! ### Calls -/

omit hchild in
/-- Lending a variable moves its accepted value out and leaves null in its slot. -/
theorem borrow_preserves (p : Param) (node : Nat) :
    Preserves c fr (fun r => r.1.throughout c = true) (borrow p node) := by
  unfold borrow
  refine Preserves.read_bind ?_
  dsimp only
  split
  · split
    · refine Preserves.workspace.bind fun ws hws => ?_
      split
      · rename_i vid _
        obtain ⟨hvars, hval⟩ := hws.vars.take hc.null_throughout vid
        rcases ht : ws.vars.take vid with ⟨vars, value⟩
        rw [ht] at hvars hval
        refine (Preserves.modifyWorkspace fun w hw => by exact ⟨hvars, hw.functions⟩).bind fun _ _ =>
          Preserves.pure ?_
        cases value with
        | none => exact hc.null_throughout
        | some v => exact hval v rfl
      · split
        · exact Preserves.pure (hc.series_throughout _)
        · exact Preserves.fail _
    · exact Preserves.fail _
  · exact Preserves.fail _

omit hchild in
theorem converted_preserves (id : Nat) (t : DeclaredType) :
    Preserves c fr (fun v => v.throughout c = true) (converted id t) :=
  (Preserves.operand hc id).bind fun _ ho => Preserves.workspace.bind fun _ _ =>
    Preserves.lift fun _ hv => hc.convert_throughout ho hv

/-- Binding arguments puts accepted values into the locals. -/
theorem bindArgs_preserves :
    ∀ (ps : List (Param × Nat)) (locals : VarTable) (lent : List (String × Lent)), locals.Every c →
      Preserves c fr (fun r => r.1.Every c) (bindArgs child ps locals lent)
  | [], _, _, h => Preserves.pure h
  | (p, node) :: rest, locals, lent, h => by
    rw [bindArgs]
    split
    · exact Preserves.pure h
    dsimp only
    split
    · refine (Preserves.attempt (borrow_preserves hc p node)).bind fun r hr => ?_
      split
      · simp only [pure_bind]
        split
        · exact Preserves.pure h
        · rename_i locals' _ hins
          exact bindArgs_preserves rest locals' _ (h.insert (hr _ rfl) hins)
      · simp only [pure_bind]
        exact Preserves.pure h
    · refine (Preserves.attempt ((hchild node).bind fun k _ => converted_preserves hc k p.declared)).bind
        fun r hr => ?_
      simp only [pure_bind]
      split
      · exact Preserves.pure h
      · split
        · exact Preserves.pure h
        · rename_i locals' _ hins
          exact bindArgs_preserves rest locals' _ (h.insert (hr _ rfl) hins)

omit hchild in
/-- Taking a local out by name keeps the locals accepted and gives an accepted value. -/
theorem takeNamed_every {vt W : VarTable} (h : vt.Every c) {name : String} {value? : Option Value}
    (heq : (match vt.lookup name with
      | some lid => vt.take lid
      | none => (vt, none)) = (W, value?)) :
    W.Every c ∧ ∀ v, value? = some v → v.throughout c = true := by
  split at heq
  · rename_i lid _
    obtain ⟨h1, h2⟩ := h.take hc.null_throughout lid
    rw [heq] at h1 h2
    exact ⟨h1, h2⟩
  · cases heq
    exact ⟨h, fun _ hv => by cases hv⟩

omit hchild in
/-- Handing lent values back stores values the locals held; series go back to the dataset. -/
theorem giveBack_preserves (lent : List (String × Lent)) {locals : VarTable} (hl : locals.Every c) :
    Preserves c fr (fun _ => True) (giveBack lent locals) := by
  unfold giveBack
  refine (Preserves.foldlM (I := fun acc => acc.1.Every c) _ _ hl fun acc hacc a _ => ?_).bind
    fun r _ => ?_
  · dsimp only
    split
    · rename_i locals' value heq
      -- the value handed back is one the locals held
      obtain ⟨hl', hv⟩ := takeNamed_every hc hacc heq
      split
      · exact (Preserves.modifyWorkspace fun w hw => by exact ⟨hw.vars.setSlot (hv _ rfl) _, hw.functions⟩).bind
          fun _ _ => Preserves.pure hl'
      · exact Preserves.pure hl'
    · rename_i locals' heq
      obtain ⟨hl', -⟩ := takeNamed_every hc hacc heq
      -- a local that is gone takes the caller's variable with it
      split
      · refine Preserves.workspace.bind fun ws hws => ?_
        split
        · split
          · rename_i hrem
            exact (Preserves.modifyWorkspace fun w hw => by exact ⟨hws.vars.remove hrem, hw.functions⟩).bind
              fun _ _ => Preserves.pure hl'
          · exact (Preserves.throw (R := fun _ => True) _).bind fun _ _ => Preserves.pure hl'
        · exact Preserves.pure hl'
      · exact Preserves.pure hl'
  · -- a series handed back changes only the dataset
    obtain ⟨_, seriesBack, lost⟩ := r
    refine (Preserves.forIn _ _ fun d _ b => ?_).bind fun _ _ => ?_
    · obtain ⟨sid, value⟩ := d
      dsimp only
      split
      · refine Preserves.workspace.bind fun ws _ => ?_
        refine Preserves.ite ?_ (Preserves.pure trivial)
        split
        · exact (Preserves.modifyWorkspace fun w hw => by exact ⟨hw.vars, hw.functions⟩).bind
            fun _ _ => Preserves.pure trivial
        · exact (Preserves.throw (R := fun _ => True) _).bind fun _ _ => Preserves.pure trivial
      · exact Preserves.pure trivial
    · split
      · exact Preserves.throw _
      · exact Preserves.pure trivial

omit hchild in
/-- What a call does once its body has run or failed: hand the pointer arguments back and
report the first failure. -/
theorem giveBack_join_preserves (lent : List (String × Lent)) {locals : VarTable} (hl : locals.Every c)
    {fn : UserFunction} (hfn : fn.Every c) {result : Except EvalError Value}
    (hres : ∀ v, result = .ok v → v.throughout c = true) :
    Preserves c fr (fun r => r.1.Every c ∧ ∀ v, r.2 = .ok v → v.throughout c = true) (do
      let back ← tryCatch (do giveBack lent locals; pure none) fun e => pure (some e)
      match back with
      | some e => pure (fn, Except.error e)
      | none => pure (fn, result)) := by
  refine (Preserves.tryCatch (R := fun _ => True)
    ((giveBack_preserves hc lent hl).bind fun _ _ => Preserves.pure trivial)
    fun _ => Preserves.pure trivial).bind fun back _ => ?_
  split
  · exact Preserves.pure ⟨hfn, fun _ h => by cases h⟩
  · exact Preserves.pure ⟨hfn, hres⟩

/-- A call binds accepted locals, runs the body through the frame and hands the lent values
back: the copy it gives back and its value are accepted once the frame's bodies keep the stores
accepted. -/
theorem invoke_preserves (hinv : InvokeKeeps c fr.invoke) {fn : UserFunction} (hfn : fn.Every c)
    (args : List Nat) :
    Preserves c fr (fun r => r.1.Every c ∧ ∀ v, r.2 = .ok v → v.throughout c = true)
      (invoke child fn args) := by
  unfold invoke
  split
  · exact Preserves.pure ⟨hfn, fun _ h => by cases h⟩
  refine (bindArgs_preserves hc hchild _ _ _ VarTable.every_empty).bind fun b hb => ?_
  obtain ⟨locals, lent, failure⟩ := b
  dsimp only
  split
  · rw [pure_bind]
    exact giveBack_join_preserves hc lent hb hfn fun _ h => by cases h
  · refine Preserves.read_bind (Preserves.workspace.bind fun ws hws => ?_)
    -- the body runs against the locals one level deeper; the caller's variables come back
    let res := fr.invoke (enterBody ws locals) fn
    obtain ⟨hafter, hfn', hr⟩ : res.1.Every c ∧ res.2.1.Every c ∧
        ∀ v, res.2.2 = .ok v → v.throughout c = true :=
      hinv (enterBody ws locals) fn ⟨hb, hws.functions⟩ hfn
    -- the caller's variables come back, then the lent values are handed back
    have hmod : Preserves c fr (fun _ => True)
        (modifyWorkspace fun _ => leaveBody ws res.1) :=
      Preserves.modifyWorkspace fun _ _ => ⟨hws.vars, hafter.functions⟩
    have hback := hmod.bind fun _ _ => (Preserves.pure (a := (res.2.1, res.2.2, res.1.vars))
        (R := fun x => x.1.Every c ∧ (∀ v, x.2.1 = .ok v → v.throughout c = true) ∧ x.2.2.Every c)
        ⟨hfn', hr, hafter.vars⟩).bind fun x hx => giveBack_join_preserves hc lent hx.2.2 hx.1 hx.2.1
    split
    · split
      · exact (Preserves.throw (R := fun _ => True) _).bind fun _ _ => hback
      · exact hback
    · exact hback

/-- A call runs a builtin into its cell, or a user function's copy checked out of the table and
back in; its value is accepted once the frame's bodies keep the stores accepted. -/
theorem call_preserves (hinv : InvokeKeeps c fr.invoke) (pos : Nat) (name : String) (args : List Nat) :
    Preserves c fr (fun _ => True) (call child pos name args) := by
  unfold call
  refine Preserves.workspace.bind fun ws hws => ?_
  split
  · exact ((Preserves.mapM _ fun k _ => hchild k).mono fun _ _ => trivial).bind fun ids _ =>
      Preserves.compute hc (fun _ hr => builtin_keeps hc hr _ ids) _
  · refine Preserves.ite (Preserves.fail _) (Preserves.ite (Preserves.fail _) ?_)
    split
    · exact Preserves.fail _
    · rename_i table fn hk
      obtain ⟨htable, hfn⟩ := hws.functions.checkout hk
      refine (Preserves.modifyWorkspace fun w hw => by exact ⟨hw.vars, htable⟩).bind fun _ _ => ?_
      refine (invoke_preserves hc hchild hinv hfn args).bind fun r hr => ?_
      obtain ⟨fn', result⟩ := r
      refine (Preserves.modifyWorkspace fun w hw => by exact ⟨hw.vars, hw.functions.checkin hr.1⟩).bind
        fun _ _ => ?_
      split
      · exact Preserves.throw _
      · exact Preserves.compute hc (fun _ _ => OpM.put_keeps (hr.2 _ rfl)) _

/-- One node keeps the stores accepted once its children do and the frame's bodies do. -/
theorem step_preserves (hinv : InvokeKeeps c fr.invoke) (pos : Nat) :
    Preserves c fr (fun _ => True) (step child pos) := by
  unfold step
  refine Preserves.read_bind ?_
  dsimp only
  split
  · exact Preserves.throw _
  · rename_i n _
    cases n with
    | num x => exact Preserves.literal _ (hc.scalar_throughout _)
    | str s => exact Preserves.literal _ (hc.str_throughout _)
    | null => exact Preserves.literal _ hc.null_throughout
    | ident name => exact ident_preserves _ _
    | selector d => exact Preserves.fail _
    | all => exact Preserves.fail _
    | unary op x =>
      exact (hchild x).bind fun a _ => Preserves.compute hc (fun _ hr => unary_keeps hc hr op a) _
    | binary op l r =>
      exact Preserves.ite (logical_preserves hc hchild _ _ _ _) ((hchild l).bind fun a _ =>
        (hchild r).bind fun b _ => Preserves.compute hc (fun _ hr => binary_keeps hc hr op a b) _)
    | ternary cnd a b => exact conditional_preserves hc hchild _ _ _ _
    | call fn args => exact call_preserves hc hchild hinv _ _ _
    | matrixLit rows => exact matrixLiteral_preserves hc hchild _ _
    | matrixRow elems => exact Preserves.fail _
    | listLit elems => exact listLiteral_preserves hc hchild _ _
    | bundleLit pairs => exact bundleLiteral_preserves hc hchild _ _
    | arrayLit elems => exact arrayLiteral_preserves hc hchild _ _
    | index base args =>
      exact (hchild base).bind fun _ _ => (subscripts_preserves hc hchild _).bind fun _ _ =>
        access_preserves hc _ _ _
    | member base key =>
      refine (hchild base).bind fun b _ => (Preserves.operand hc b).bind fun o _ => ?_
      split
      · exact Preserves.fail _
      · exact Preserves.fail _
      · exact Preserves.fail _
      · exact access_preserves hc _ _ _
    | range lo hi => exact Preserves.fail _
    | lag base k => exact lag_preserves hc hchild _ _ _
    | ref x => exact Preserves.fail _

end Walk

/-- **Every position keeps the stores accepted** once the frame's bodies do: the cells, the
variables and the compiled copies of the functions hold accepted values after every run,
returning or failing. -/
theorem evalNode_preserves {c : Value → Bool} (hc : Value.Invariant c) {fr : Frame}
    (hinv : InvokeKeeps c fr.invoke) (pos : Nat) : EvalM.Preserves c fr (fun _ => True) (evalNode pos) := by
  induction pos using Nat.strongRecOn with
  | ind pos ih =>
    rw [evalNode]
    refine Walk.step_preserves hc (fun k => ?_) hinv pos
    split
    · exact ih k ‹_›
    · exact EvalM.Preserves.throw _

end SeriesCalc
