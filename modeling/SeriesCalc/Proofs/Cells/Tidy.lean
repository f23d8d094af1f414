import SeriesCalc.Proofs.Cells.Bookkeeping
import SeriesCalc.Proofs.Exec
import SeriesCalc.Eval.Walk

/-!
# Walk steps that keep the cells consistent

`EvalM.Tidy fr P x Q`: every run of `x` from a machine whose cells are consistent and satisfy
`P` ends with consistent cells, whether it returns or fails, and a value it returns satisfies
`Q`. It is a Hoare triple over the cell store, with the consistency of
`CellStore.Consistent` built into both ends; since a run that fails keeps what it did to the
cells, the invariant is required of the failing runs too.

`EvalM.KeepsCells fr x`: every run of `x` leaves the cells as they were. The workspace
operations do, and so does whatever is built from them alone.

The combinators (`Tidy.bind`, `Tidy.tryCatch`, `Tidy.mapM`, `Tidy.foldlM`, `Tidy.forIn`, ...)
follow the monad; a step that keeps the cells keeps every property of them (`Tidy.of_cells`). The cell
operations each keep consistency by their `CellStore.Consistent` lemma, and those that return a
cell return a live one: `Tidy.literal`, `Tidy.bindCell`, `Tidy.compute`, and `Tidy.share` when
the shared cell is live.
-/

namespace SeriesCalc

namespace EvalM

/-- Every run of `x` in `fr` from a machine whose cells are consistent and satisfy `P` ends with
consistent cells, whether `x` returns or fails; a value `a` it returns satisfies `Q a` of the
cells it ends with. -/
def Tidy {α : Type} (fr : Frame) (P : CellStore → Prop) (x : EvalM α) (Q : α → CellStore → Prop) :
    Prop :=
  ∀ m, m.cells.Consistent → P m.cells →
    (x.exec fr m).2.cells.Consistent ∧ ∀ a, (x.exec fr m).1 = .ok a → Q a (x.exec fr m).2.cells

/-- A step that keeps the cells consistent and returns a live cell: what every node of a tree
does. -/
abbrev LiveCell (fr : Frame) (x : EvalM Nat) : Prop := Tidy fr (fun _ => True) x fun id c => c.Live id

/-- What `compute` leaves in the cells: the position's own cell, lent to the operator and given
back whatever the operator did; a returned cell is that one. -/
theorem compute_cells (fr : Frame) (m : Machine) (pos : Nat) (op : OpEnv → OpM Unit) :
    ∃ v, ((compute pos op).exec fr m).2.cells =
        (((m.cells.writable pos).1.lend (m.cells.writable pos).2).1).restore (m.cells.writable pos).2 v ∧
      ∀ id, ((compute pos op).exec fr m).1 = .ok id → id = (m.cells.writable pos).2 := by
  simp only [compute, takeMachine, exec_bind, exec_read, exec_modifyGet]
  split
  rename_i r s _
  refine ⟨s.cell, ?_⟩
  cases r with
  | ok u => exact ⟨rfl, fun _ h => by cases h; rfl⟩
  | error e => exact ⟨rfl, fun _ h => by cases h⟩

/-- Every run of `x` leaves the cells as they were, whether it returns or fails: a step that
works on the workspace alone. -/
def KeepsCells {α : Type} (fr : Frame) (x : EvalM α) : Prop := ∀ m, (x.exec fr m).2.cells = m.cells

namespace KeepsCells

variable {α β : Type} {fr : Frame} {x : EvalM α} {f : α → EvalM β}

protected theorem pure (a : α) : KeepsCells fr (pure a) := fun _ => rfl

protected theorem throw (e : EvalError) : KeepsCells fr (throw e : EvalM α) := fun _ => rfl

theorem fail (e : Fault) : KeepsCells fr (EvalM.fail e : EvalM α) := fun _ => rfl

protected theorem get : KeepsCells fr get := fun _ => rfl

theorem workspace : KeepsCells fr EvalM.workspace := fun _ => rfl

theorem modifyWorkspace (g : Workspace → Workspace) : KeepsCells fr (EvalM.modifyWorkspace g) :=
  fun _ => rfl

theorem lift (r : Except EvalError α) : KeepsCells fr (EvalM.lift r) := fun _ => by rw [exec_lift]

theorem operand (id : Nat) : KeepsCells fr (EvalM.operand id) := fun _ => by rw [exec_operand]

/-- A step after `read` sees the frame itself. -/
theorem read_bind {f : Frame → EvalM β} (h : KeepsCells fr (f fr)) : KeepsCells fr (read >>= f) :=
  fun m => by
    rw [exec_bind]
    exact h m

protected theorem bind (hx : KeepsCells fr x) (hf : ∀ a, KeepsCells fr (f a)) :
    KeepsCells fr (x >>= f) := by
  intro m
  rw [exec_bind]
  cases (x.exec fr m).1 with
  | ok a => rw [hf a, hx]
  | error e => exact hx m

protected theorem tryCatch {h : EvalError → EvalM α} (hx : KeepsCells fr x)
    (hh : ∀ e, KeepsCells fr (h e)) : KeepsCells fr (tryCatch x h) := by
  intro m
  rw [exec_tryCatch]
  cases (x.exec fr m).1 with
  | ok a => exact hx m
  | error e => rw [hh e, hx]

theorem attempt (hx : KeepsCells fr x) : KeepsCells fr (Walk.attempt x) := by
  unfold Walk.attempt
  refine KeepsCells.tryCatch ?_ fun e => ?_
  · rw [map_eq_pure_bind]
    exact hx.bind fun _ => KeepsCells.pure _
  · split
    · exact KeepsCells.throw _
    · exact KeepsCells.pure _

protected theorem foldlM {g : β → α → EvalM β} :
    ∀ (l : List α) (b : β), (∀ b, ∀ a ∈ l, KeepsCells fr (g b a)) → KeepsCells fr (l.foldlM g b)
  | [], _, _ => KeepsCells.pure _
  | a :: l, b, h => by
    rw [List.foldlM_cons]
    exact (h b a List.mem_cons_self).bind fun b' =>
      KeepsCells.foldlM l b' fun c d hd => h c d (List.mem_cons_of_mem _ hd)

protected theorem forIn {γ : Type} {g : γ → β → EvalM (ForInStep β)} :
    ∀ (l : List γ) (b : β), (∀ c ∈ l, ∀ b, KeepsCells fr (g c b)) → KeepsCells fr (forIn l b g)
  | [], _, _ => KeepsCells.pure _
  | c :: l, b, h => by
    rw [List.forIn_cons]
    refine (h c List.mem_cons_self b).bind fun r => ?_
    cases r with
    | done b' => exact KeepsCells.pure _
    | yield b' => exact KeepsCells.forIn l b' fun d hd => h d (List.mem_cons_of_mem _ hd)

end KeepsCells

namespace Tidy

variable {α β : Type} {fr : Frame} {P P' : CellStore → Prop} {x : EvalM α} {f : α → EvalM β}
  {Q Q' : α → CellStore → Prop}

/-- A step that leaves the cells alone keeps what holds of them. -/
theorem of_cells (h : KeepsCells fr x) : Tidy fr P x fun _ => P := by
  intro m hm hp
  rw [h m]
  exact ⟨hm, fun _ _ => hp⟩

theorem weaken (h : Tidy fr P' x Q) (hP : ∀ c, P c → P' c) : Tidy fr P x Q := by
  intro m hm hp
  exact h m hm (hP _ hp)

theorem conseq (h : Tidy fr P x Q) (hP : ∀ c, P' c → P c) (hQ : ∀ a c, Q a c → Q' a c) :
    Tidy fr P' x Q' := by
  intro m hm hp
  obtain ⟨hc, hq⟩ := h m hm (hP _ hp)
  exact ⟨hc, fun a ha => hQ _ _ (hq a ha)⟩

/-- A step that needs nothing of the cells beyond consistency runs under any precondition. -/
theorem always (h : Tidy fr (fun _ => True) x Q) : Tidy fr P x Q :=
  h.weaken fun _ _ => trivial

/-- Forgetting what a step returns. -/
theorem forget (h : Tidy fr P x Q) : Tidy fr P x fun _ _ => True :=
  h.conseq (fun _ h => h) fun _ _ _ => trivial

protected theorem bind {R : α → CellStore → Prop} {Q : β → CellStore → Prop} (hx : Tidy fr P x R)
    (hf : ∀ a, Tidy fr (R a) (f a) Q) : Tidy fr P (x >>= f) Q := by
  intro m hm hp
  rw [exec_bind]
  obtain ⟨hc, hq⟩ := hx m hm hp
  cases h : (x.exec fr m).1 with
  | ok a => exact hf a _ hc (hq a h)
  | error e => exact ⟨hc, fun _ ha => by cases ha⟩

protected theorem pure (a : α) : Tidy fr P (pure a) fun _ => P := of_cells (KeepsCells.pure a)

/-- A returned value chosen so that it meets the postcondition. -/
theorem returns (a : α) (h : ∀ c, P c → Q a c) : Tidy fr P (pure a) Q :=
  fun _ hm hp => ⟨hm, fun _ ha => by cases ha; exact h _ hp⟩

protected theorem throw (e : EvalError) : Tidy fr P (throw e : EvalM α) Q :=
  fun m hm _ => ⟨hm, fun _ ha => by cases ha⟩

theorem fail (e : Fault) : Tidy fr P (EvalM.fail e : EvalM α) Q := Tidy.throw _

protected theorem read : Tidy fr P read fun _ => P := of_cells fun _ => rfl

/-- A step after `read` sees the frame itself. -/
theorem read_bind {f : Frame → EvalM β} {Q : β → CellStore → Prop} (h : Tidy fr P (f fr) Q) :
    Tidy fr P (read >>= f) Q := by
  intro m hm hp
  rw [exec_bind]
  exact h m hm hp

protected theorem get : Tidy fr P get fun _ => P := of_cells KeepsCells.get

theorem workspace : Tidy fr P EvalM.workspace fun _ => P := of_cells KeepsCells.workspace

theorem lift (r : Except EvalError α) : Tidy fr P (EvalM.lift r) fun _ => P :=
  of_cells (KeepsCells.lift r)

theorem operand (id : Nat) : Tidy fr P (EvalM.operand id) fun _ => P :=
  of_cells (KeepsCells.operand id)

theorem modifyWorkspace (g : Workspace → Workspace) : Tidy fr P (EvalM.modifyWorkspace g) fun _ => P :=
  of_cells (KeepsCells.modifyWorkspace g)

protected theorem ite {c : Prop} [Decidable c] {y : EvalM α} (hx : Tidy fr P x Q) (hy : Tidy fr P y Q) :
    Tidy fr P (if c then x else y) Q := by
  split
  · exact hx
  · exact hy

protected theorem tryCatch {h : EvalError → EvalM α} (hx : Tidy fr P x Q)
    (hh : ∀ e, Tidy fr (fun _ => True) (h e) Q) : Tidy fr P (tryCatch x h) Q := by
  intro m hm hp
  rw [exec_tryCatch]
  obtain ⟨hc, hq⟩ := hx m hm hp
  cases hr : (x.exec fr m).1 with
  | ok a => exact ⟨hc, fun b hb => by cases hb; exact hq a hr⟩
  | error e => exact hh e _ hc trivial

protected theorem map (g : α → β) (hx : Tidy fr P x Q) : Tidy fr P (g <$> x) fun _ _ => True := by
  rw [map_eq_pure_bind]
  exact hx.bind fun a => (Tidy.pure (g a)).forget

theorem attempt (hx : Tidy fr P x Q) : Tidy fr P (Walk.attempt x) fun _ _ => True := by
  unfold Walk.attempt
  refine Tidy.tryCatch (hx.map _) fun e => ?_
  split
  · exact Tidy.throw _
  · exact (Tidy.pure _).conseq (fun _ _ => trivial) fun _ _ _ => trivial

protected theorem mapM : ∀ (l : List α), (∀ a ∈ l, Tidy fr P (f a) fun _ => P) →
    Tidy fr P (l.mapM f) fun _ => P
  | [], _ => Tidy.pure _
  | a :: l, h => by
    rw [List.mapM_cons]
    exact (h a List.mem_cons_self).bind fun _ =>
      (Tidy.mapM l fun b hb => h b (List.mem_cons_of_mem _ hb)).bind fun _ => Tidy.pure _

protected theorem optionMapM : ∀ (o : Option α), (∀ a ∈ o, Tidy fr P (f a) fun _ => P) →
    Tidy fr P (o.mapM f) fun _ => P
  | none, _ => Tidy.pure _
  | some a, h => (h a rfl).bind fun _ => Tidy.pure _

protected theorem foldlM {g : β → α → EvalM β} :
    ∀ (l : List α) (b : β), (∀ b, ∀ a ∈ l, Tidy fr P (g b a) fun _ => P) →
      Tidy fr P (l.foldlM g b) fun _ => P
  | [], _, _ => Tidy.pure _
  | a :: l, b, h => by
    rw [List.foldlM_cons]
    exact (h b a List.mem_cons_self).bind fun b' =>
      Tidy.foldlM l b' fun c d hd => h c d (List.mem_cons_of_mem _ hd)

protected theorem forIn {γ : Type} {g : γ → β → EvalM (ForInStep β)} :
    ∀ (l : List γ) (b : β), (∀ c ∈ l, ∀ b, Tidy fr P (g c b) fun _ => P) →
      Tidy fr P (forIn l b g) fun _ => P
  | [], _, _ => Tidy.pure _
  | c :: l, b, h => by
    rw [List.forIn_cons]
    refine (h c List.mem_cons_self b).bind fun r => ?_
    cases r with
    | done b' => exact Tidy.pure _
    | yield b' => exact Tidy.forIn l b' fun d hd => h d (List.mem_cons_of_mem _ hd)

/-! ### Cell operations -/

theorem modifyCells_of {g : CellStore → CellStore × α}
    (h : ∀ c, c.Consistent → P c → (g c).1.Consistent ∧ Q (g c).2 (g c).1) :
    Tidy fr P (modifyCells g) Q := by
  intro m hm hp
  rw [exec_modifyCells]
  obtain ⟨hc, hq⟩ := h _ hm hp
  exact ⟨hc, fun a ha => by cases ha; exact hq⟩

theorem literal (pos : Nat) (v : Value) : Tidy fr P (EvalM.literal pos v) fun id c => c.Live id :=
  modifyCells_of fun c hc _ =>
    have h := hc.literal pos v
    ⟨h, h.linked_live pos _ (by rw [CellStore.link_literal]; rfl)⟩

theorem bindCell (pos : Nat) (hd : Handle) (k : ValueKind) (r : Role) :
    Tidy fr P (EvalM.bindCell pos hd k r) fun id c => c.Live id :=
  modifyCells_of fun c hc _ =>
    have h := hc.bind pos hd k r
    ⟨h, h.linked_live pos _ (by rw [CellStore.link_bind]; rfl)⟩

/-- Sharing a cell that is live. -/
theorem share (pos target : Nat) :
    Tidy fr (fun c => c.Live target) (EvalM.share pos target) fun id c => c.Live id :=
  modifyCells_of fun c hc ht =>
    have h := hc.share ht pos
    ⟨h, h.linked_live pos target (by rw [CellStore.link_share]; rfl)⟩

theorem compute (pos : Nat) (op : OpEnv → OpM Unit) :
    Tidy fr P (EvalM.compute pos op) fun id c => c.Live id := by
  intro m hm _
  obtain ⟨v, hcells, hid⟩ := compute_cells fr m pos op
  have hw := hm.writable pos
  have hlive : (m.cells.writable pos).1.Live (m.cells.writable pos).2 :=
    hw.linked_live pos _ (by rw [CellStore.link_writable]; rfl)
  rw [hcells]
  refine ⟨(hw.lend _).restore _ v, fun id h => ?_⟩
  dsimp only
  rw [hid id h, CellStore.live_restore, CellStore.live_lend]
  exact hlive

theorem takeOwned (id : Nat) : Tidy fr P (modifyCells fun c => c.takeOwned id) fun _ _ => True :=
  modifyCells_of fun _ hc _ => ⟨hc.takeOwned id, trivial⟩

end Tidy

end EvalM

end SeriesCalc
