import SeriesCalc.Proofs.Write
import SeriesCalc.Proofs.Values.Operators
import SeriesCalc.Proofs.Values.Stores

/-!
# Assignments store accepted values

An assignment (`WriteM`) computes the new value of a variable, of a member or element inside it,
or of a dataset series, and stores it. Given a check that evaluation keeps (`Value.Invariant c`)
and an accepted right-hand side, every value it stores satisfies `c` throughout, so the stored
values of the workspace keep satisfying it (`Assign.write_preserves`).

A write deep inside a variable rebuilds each enclosing container with one member or element
replaced by a value of the same kind, which is what `Invariant.replaceMember` and
`Invariant.replaceItem` grant. The kind is kept because every last step returns a container of
the kind it was given, and because an inflected update (`op=`) converts its result back to the
old value's type; an old value of no declared type is null, which no operator takes on the left,
or an array with no element kind, which the array operators turn into an array
(`Binary.apply_untyped`).

* `Scratch.Leaves P x`: every run of an operator `x` that returns leaves a cell satisfying `P`.
* `WriteM.Preserves c R x`: every run of `x` from a workspace whose stored values satisfy `c`
  ends in one whose stored values do, and every value `x` returns satisfies `R`.
-/

namespace SeriesCalc

namespace Scratch

variable {ε α β : Type} {P : Value → Prop}

/-- Every run of `x` that returns leaves a cell satisfying `P`. -/
def Leaves (P : Value → Prop) (x : ExceptT ε (StateM Scratch) α) : Prop :=
  ∀ s a, (exec x s).1 = .ok a → P (exec x s).2.cell

namespace Leaves

variable {x : ExceptT ε (StateM Scratch) α} {f : α → ExceptT ε (StateM Scratch) β}

protected theorem throw (e : ε) : Leaves P (throw e : ExceptT ε (StateM Scratch) α) :=
  fun _ _ h => by cases h

theorem mono {Q : Value → Prop} (h : Leaves P x) (hPQ : ∀ v, P v → Q v) : Leaves Q x :=
  fun s a ha => hPQ _ (h s a ha)

/-- What the last step leaves is what the run leaves. -/
protected theorem bind {R : α → Prop} (hx : Yields R x) (hf : ∀ a, R a → Leaves P (f a)) :
    Leaves P (x >>= f) := by
  intro s b hb
  rw [exec_bind] at hb ⊢
  cases h : (exec x s).1 with
  | ok a =>
    rw [h] at hb
    exact hf a (hx s a h) _ b hb
  | error e =>
    rw [h] at hb
    cases hb

protected theorem ite {p : Prop} [Decidable p] {y : ExceptT ε (StateM Scratch) α} (hx : Leaves P x)
    (hy : Leaves P y) : Leaves P (if p then x else y) := by
  split
  · exact hx
  · exact hy

end Leaves

end Scratch

namespace OpM

open Scratch

theorem put_leaves {P : Value → Prop} {v : Value} (hv : P v) : Leaves P (put v) :=
  fun _ _ _ => hv

theorem fail_leaves {P : Value → Prop} {α : Type} (f : Fault) : Leaves P (fail f : OpM α) :=
  Leaves.throw _

end OpM

/-! ## Operators with an untyped left side -/

/-- A value of no declared type is null or an array with no element kind. -/
theorem DeclaredType.of_eq_any {v : Value} (h : DeclaredType.of v = .any) :
    v = .null ∨ ∃ items, v = .array none items := by
  cases v with
  | null => exact .inl rfl
  | array k items =>
    cases k with
    | none => exact .inr ⟨items, rfl⟩
    | some k => cases h
  | _ => cases h

namespace Collections

open Scratch

variable {a b : Operand}

/-- The string operators take a string or a series on the left. -/
theorem strings_leaves_none (env : OpEnv) (op : BinaryOp) (ha : DeclaredType.of a.value = .any) :
    Leaves (fun _ => False) (strings env op a b) := by
  have hstr : ∀ s, a.value ≠ .str s := fun s h => by rw [h] at ha; cases ha
  have hser : ∀ xs, a.value ≠ .series xs := fun xs h => by rw [h] at ha; cases ha
  unfold strings
  split
  · exact absurd ‹a.value = .str _› (hstr _)
  · exact absurd ‹a.value = .str _› (hstr _)
  · exact absurd ‹a.value = .str _› (hstr _)
  · exact absurd ‹a.value = .str _› (hstr _)
  · exact OpM.fail_leaves _
  · exact absurd ‹a.value = .str _› (hstr _)
  · exact absurd ‹a.value = .str _› (hstr _)
  · exact absurd ‹a.value = .str _› (hstr _)
  · exact absurd ‹a.value = .series _› (hser _)
  · exact absurd ‹a.value = .series _› (hser _)
  · exact OpM.fail_leaves _

theorem bundles_leaves_none (op : BinaryOp) (ha : DeclaredType.of a.value = .any) :
    Leaves (fun _ => False) (bundles op a b) := by
  unfold bundles
  split
  · rename_i x y hx _
    rw [hx] at ha
    cases ha
  · exact OpM.fail_leaves _

theorem lists_leaves_none (op : BinaryOp) (ha : DeclaredType.of a.value = .any) :
    Leaves (fun _ => False) (lists op a b) := by
  -- an untyped value names no series
  have hids : asIds? a = none := by
    rcases DeclaredType.of_eq_any ha with hnull | ⟨items, harr⟩
    · simp [asIds?, hnull]
    · simp [asIds?, harr]
  unfold lists
  split
  · rename_i x y hx _
    rw [hids] at hx
    cases hx
  · exact OpM.fail_leaves _

/-- The result of an array update, when there is one, is written as an array. -/
theorem result_leaves_array (r : Except Fault Elements) :
    Leaves (fun v => v.kind = .array)
      (match r with
        | .ok e => OpM.put e.toValue
        | .error f => OpM.fail f) := by
  split
  · exact OpM.put_leaves rfl
  · exact OpM.fail_leaves _

/-- The array operators leave an array whenever they return. -/
theorem arrays_leaves_array (op : BinaryOp) (a b : Operand) :
    Leaves (fun v => v.kind = .array) (arrays op a b) := by
  unfold arrays
  split
  · exact OpM.fail_leaves _
  · split
    · exact Leaves.ite (result_leaves_array _) (result_leaves_array _)
    · exact Leaves.ite (OpM.fail_leaves _) (result_leaves_array _)
    · exact result_leaves_array _
    · exact result_leaves_array _
    · exact OpM.fail_leaves _

end Collections

/-- An untyped operand has no matrix view. -/
theorem asMatrix?_untyped {o : Operand} (ho : DeclaredType.of o.value = .any) (ds : Dataset) :
    asMatrix? o ds = .ok none := by
  rcases DeclaredType.of_eq_any ho with hnull | ⟨items, harr⟩
  · simp [asMatrix?, hnull]
  · simp [asMatrix?, harr]

theorem MatrixOps.apply_leaves_none {a b : Operand} (env : OpEnv) (op : BinaryOp)
    (ha : DeclaredType.of a.value = .any) : Scratch.Leaves (fun _ => False) (MatrixOps.apply env op a b) := by
  unfold MatrixOps.apply
  refine Scratch.Leaves.bind (OpM.liftFault_yields (R := fun m? => m? = none) fun m? h => ?_) fun ma? hma => ?_
  · rw [asMatrix?_untyped ha] at h
    cases h
    rfl
  · subst hma
    exact Scratch.Leaves.bind (Scratch.Yields.trivial _) fun _ _ => OpM.fail_leaves _

/-- An operator with an untyped value on the left returns only when that value is an array with
no element kind, and then leaves an array. -/
theorem Binary.apply_untyped {a b : Operand} (env : OpEnv) (op : BinaryOp)
    (ha : DeclaredType.of a.value = .any) :
    Scratch.Leaves (fun v => v.kind = a.value.kind) (Binary.apply env op a b) := by
  have none : ∀ {x : OpM Unit}, Scratch.Leaves (fun _ => False) x →
      Scratch.Leaves (fun v => v.kind = a.value.kind) x := fun h => h.mono fun _ => False.elim
  have refuse : Scratch.Leaves (fun _ => False)
      (OpM.fail (.binaryTypeMismatch op.symbol a.kind b.kind) : OpM Unit) := OpM.fail_leaves _
  have matrix := MatrixOps.apply_leaves_none (b := b) env op ha
  -- only the array case returns; every other case is refused or has a typed left side
  have typed : ∀ {v : Value}, a.value = v → DeclaredType.of v = .any := fun hv => hv ▸ ha
  unfold Binary.apply
  dsimp only
  split
  · cases typed ‹a.value = .str _›
  · exact none (Collections.strings_leaves_none env op ha)
  · have hk := ‹a.value = .array _ _›
    exact (Collections.arrays_leaves_array op a b).mono fun v hv => by rw [hv, hk]; rfl
  · cases typed ‹a.value = .bundle _›
  · exact none (Collections.bundles_leaves_none op ha)
  · cases typed ‹a.value = .list _›
  · exact none (Collections.lists_leaves_none op ha)
  · refine Scratch.Leaves.ite ?_ ?_
    · split
      · cases typed ‹a.value = .matrix _›
      · exact none matrix
      · exact none refuse
    · split
      · cases typed ‹a.value = .series _›
      · cases typed ‹a.value = .matrix _›
      · cases typed ‹a.value = .matrix _›
      · exact none matrix
      · cases typed ‹a.value = .series _›
      · cases typed ‹a.value = .series _›
      · cases typed ‹a.value = .scalar _›
      · cases typed ‹a.value = .scalar _›
      · exact none refuse

/-! ## Kinds through declared types -/

namespace DeclaredType

/-- A declared type other than `any` names the kind of the values of that type. -/
theorem valueKind?_of {v : Value} (h : DeclaredType.of v ≠ .any) :
    (DeclaredType.of v).valueKind? = some v.kind := by
  cases v with
  | null => exact absurd rfl h
  | array k items =>
    cases k with
    | none => exact absurd rfl h
    | some k => rfl
  | _ => rfl

/-- Two values of one declared type other than `any` have one kind. -/
theorem kind_eq_of_of {v w : Value} (h : DeclaredType.of v = DeclaredType.of w)
    (hw : DeclaredType.of w ≠ .any) : v.kind = w.kind := by
  have hv : DeclaredType.of v ≠ .any := h ▸ hw
  have := valueKind?_of hv
  rw [h, valueKind?_of hw] at this
  exact (Option.some.inj this).symm

end DeclaredType

/-- A value converted to a declared type other than `any` has that type. -/
theorem of_convert {ds : Dataset} {src : Operand} {t : DeclaredType} {v : Value}
    (h : convert ds src t = .ok v) (ht : t ≠ .any) : DeclaredType.of v = t := by
  unfold convert at h
  split at h
  · exact absurd rfl ht
  · split at h
    · cases h
      rfl
    · cases h
  · split at h
    · cases h
      rfl
    · cases h
      rfl
    · split at h
      · cases h
        rfl
      · cases h
    · cases h
  · split at h
    · cases h
      rfl
    · split at h
      · cases h
        rfl
      · cases h
  · split at h
    · cases h
      rfl
    · cases h
      rfl
    · cases h
  · split at h
    · cases h
      rfl
    · cases h
  · split at h
    · cases h
      rfl
    · cases h
  · split at h
    · split at h
      · cases h
        rfl
      · cases h
    · cases h

/-- Converting a value that is not null gives one that is not null. -/
theorem convert_isNull {ds : Dataset} {src : Operand} {t : DeclaredType} {v : Value}
    (h : convert ds src t = .ok v) (hs : src.value.isNull = false) : v.isNull = false := by
  by_cases ht : t = .any
  · subst ht
    unfold convert at h
    cases h
    exact hs
  · -- a value of a declared type other than `any` is not null
    have hv := of_convert h ht
    cases v with
    | null => exact absurd hv.symm ht
    | _ => rfl

theorem conform_isNull {ds : Dataset} {src o : Operand} {t : DeclaredType}
    (h : conform ds src t = .ok o) (hs : src.value.isNull = false) : o.value.isNull = false := by
  unfold conform at h
  split at h
  · cases h
    exact hs
  · cases hv : convert ds src t with
    | error e => rw [hv] at h; cases h
    | ok v =>
      rw [hv] at h
      cases h
      exact convert_isNull hv hs

/-- The derived equality test of element kinds is equality. -/
theorem ArrayKind.eq_of_beq {a b : ArrayKind} (h : (a == b) = true) : a = b := by
  revert h
  cases a <;> cases b <;> decide

/-- The derived equality test of declared types is equality. -/
theorem DeclaredType.eq_of_beq {a b : DeclaredType} (h : (a == b) = true) : a = b := by
  cases a <;> cases b
  case array.array j k => exact congrArg DeclaredType.array (ArrayKind.eq_of_beq h)
  -- different constructors compare false, and equal ones are equal
  all_goals first
    | rfl
    | cases h

theorem DeclaredType.isAny_eq_true {t : DeclaredType} : t.isAny = true ↔ t = .any := by
  cases t <;> simp [DeclaredType.isAny]

/-- The value standing for an empty value of a declared type is not null. -/
theorem DeclaredType.empty?_isNull {t : DeclaredType} {v : Value} (h : t.empty? = some v) :
    v.isNull = false := by
  cases t <;> simp only [DeclaredType.empty?, Option.some.injEq, reduceCtorEq] at h <;> subst h <;> rfl

theorem AssignOp.eq_assign_of_isInflected {op : AssignOp} (h : op.isInflected = false) : op = .assign := by
  cases op with
  | assign => rfl
  | _ => cases h

/-! ## Writes that keep the stores accepted -/

/-- The stored values do not depend on the dataset or the warning log. -/
theorem Workspace.Every.of_eq {c : Value → Bool} {ws ws' : Workspace} (h : ws.Every c)
    (hv : ws'.vars = ws.vars) (hf : ws'.functions = ws.functions) : ws'.Every c :=
  ⟨hv ▸ h.vars, hf ▸ h.functions⟩

namespace WriteM

variable {α β : Type} {c : Value → Bool}

/-- Every run of `x` from a workspace whose stored values satisfy `c` ends in one whose stored
values do, and every value `x` returns satisfies `R`. -/
def Preserves (c : Value → Bool) (R : α → Prop) (x : WriteM α) : Prop :=
  ∀ ws : Workspace, ws.Every c → (x.exec ws).2.Every c ∧ ∀ a, (x.exec ws).1 = .ok a → R a

namespace Preserves

variable {R R' : α → Prop} {S : β → Prop} {x : WriteM α} {f : α → WriteM β}

theorem mono (h : Preserves c R x) (hR : ∀ a, R a → R' a) : Preserves c R' x :=
  fun ws hws => ⟨(h ws hws).1, fun a ha => hR a ((h ws hws).2 a ha)⟩

/-- A step that leaves the workspace as it is. -/
theorem of_ws (hs : ∀ ws, (x.exec ws).2 = ws) (hR : ∀ ws, ∀ a, (x.exec ws).1 = .ok a → R a) :
    Preserves c R x :=
  fun ws hws => ⟨by rw [hs ws]; exact hws, hR ws⟩

protected theorem pure {a : α} (h : R a) : Preserves c R (pure a) :=
  of_ws (fun _ => rfl) fun _ b hb => by
    cases hb
    exact h

protected theorem throw (e : EvalError) : Preserves c R (throw e : WriteM α) :=
  of_ws (fun _ => rfl) fun _ _ hb => by cases hb

theorem fail (e : Fault) : Preserves c R (fail e : WriteM α) := Preserves.throw _

theorem lift {r : Except EvalError α} (h : ∀ a, r = .ok a → R a) : Preserves c R (lift r) :=
  of_ws (fun _ => by rw [exec_lift]) fun _ a ha => by
    rw [exec_lift] at ha
    exact h a ha

theorem liftData {r : Except DataError α} (h : ∀ a, r = .ok a → R a) : Preserves c R (liftData r) :=
  of_ws (fun _ => by rw [exec_liftData]) fun _ a ha => by
    rw [exec_liftData] at ha
    cases r with
    | ok b =>
      cases ha
      exact h a rfl
    | error e => cases ha

protected theorem bind (hx : Preserves c R x) (hf : ∀ a, R a → Preserves c S (f a)) :
    Preserves c S (x >>= f) := by
  intro ws hws
  rw [exec_bind]
  obtain ⟨hws', hR⟩ := hx ws hws
  cases h : (x.exec ws).1 with
  | ok a => exact hf a (hR a h) _ hws'
  | error e => exact ⟨hws', fun _ hb => by cases hb⟩

protected theorem ite {p : Prop} [Decidable p] {y : WriteM α} (hx : Preserves c R x)
    (hy : Preserves c R y) : Preserves c R (if p then x else y) := by
  split
  · exact hx
  · exact hy

/-- Reading the workspace gives one whose stored values are accepted. -/
protected theorem get : Preserves c (fun ws => ws.Every c) (get : WriteM Workspace) :=
  fun ws hws => ⟨hws, fun a ha => by
    cases ha
    exact hws⟩

theorem dataset : Preserves c (fun _ => True) dataset := of_ws (fun _ => rfl) fun _ _ _ => trivial

theorem modify {g : Workspace → Workspace} (h : ∀ ws, ws.Every c → (g ws).Every c) :
    Preserves c (fun _ => True) (modify g : WriteM PUnit) :=
  fun ws hws => ⟨h ws hws, fun _ _ => trivial⟩

protected theorem set {ws' : Workspace} (h : ws'.Every c) :
    Preserves c (fun _ => True) (set ws' : WriteM PUnit) :=
  fun _ _ => ⟨h, fun _ _ => trivial⟩

theorem putSeries (sid : Nat) (s : Series) : Preserves c (fun _ => True) (putSeries sid s) :=
  modify fun _ hws => hws.of_eq rfl rfl

/-- Keeping the stores accepted is closed under the steps of a write. -/
theorem closed : Closed (fun x => Preserves c (fun _ => True) x) where
  of_ws hs := of_ws hs fun _ _ _ => trivial
  operate target op ws hws := by
    obtain ⟨l, hl⟩ := @operate_ws ws target op
    rw [hl]
    exact ⟨hws.of_eq rfl rfl, fun _ _ => trivial⟩
  note w := by
    cases w with
    | none => exact Preserves.pure trivial
    | some w => exact modify fun _ hws => hws.of_eq rfl rfl
  writableSeries sid := by
    unfold WriteM.writableSeries
    refine Preserves.bind dataset fun ds _ => Preserves.ite (Preserves.throw _) ?_
    split
    · exact Preserves.throw _
    · exact Preserves.bind (modify fun _ hws => hws.of_eq rfl rfl) fun _ _ => Preserves.pure trivial
  bind hx hf := Preserves.bind hx fun a _ => hf a

/-- An operator run from an empty cell gives the value it leaves in the cell. -/
theorem operate (hnull : Value.null.throughout c = true) {target : DeclaredType}
    {op : OpEnv → OpM Unit} (hop : ∀ env, Scratch.Keeps c (op env)) {P : Value → Prop}
    (hl : ∀ env, Scratch.Leaves P (op env)) :
    Preserves c (fun v => v.throughout c = true ∧ P v) (operate target op) := by
  intro ws hws
  obtain ⟨l, hl'⟩ := @operate_ws ws target op
  refine ⟨hl' ▸ hws.of_eq rfl rfl, fun v hv => ?_⟩
  simp only [WriteM.operate, exec_bind, exec_get] at hv
  split at hv
  rename_i r s hrun
  -- the run of the operator is its run from the empty cell
  have hexec : Scratch.exec (op { ds := ws.dataset, target }) ⟨.null, ws.warnings⟩ = (r, s) := hrun
  cases r with
  | ok u =>
    cases hv
    have hk := hop { ds := ws.dataset, target } ⟨.null, ws.warnings⟩ hnull
    rw [hexec] at hk
    have hp := hl { ds := ws.dataset, target } ⟨.null, ws.warnings⟩ u (by rw [hexec])
    rw [hexec] at hp
    exact ⟨hk, hp⟩
  | error e => cases hv

end Preserves

end WriteM

/-- The empty element of an element kind is accepted. -/
theorem Value.Invariant.emptyElement_throughout {c : Value → Bool} (hc : Value.Invariant c)
    (k : ArrayKind) : k.emptyElement.throughout c = true := by
  cases k with
  | strings => exact hc.str_throughout _
  | matrices => exact hc.matrix_throughout Matrix.sound_empty
  | bundles => exact hc.bundle_nil_throughout
  | lists => exact hc.list_throughout _
  | arrays => exact hc.array_nil_throughout _

namespace Assign

open WriteM

variable {c : Value → Bool} (hc : Value.Invariant c)

include hc

/-- `M .= x` fills a matrix of the same shape. -/
theorem fill_throughout {slot v : Value} {rhs : Operand} (h : fill slot rhs = .ok v) :
    v.throughout c = true ∧ v.kind = slot.kind := by
  unfold fill at h
  split at h
  · split at h
    · cases h
      exact ⟨hc.matrix_throughout (Matrix.sound_filled _ _ _), rfl⟩
    · cases h
  · cases h

/-- Putting back a value of the kind an accessor reached keeps the container accepted. -/
theorem replaceAt_throughout {slot inner v : Value} {a : Accessor} (hslot : slot.throughout c = true)
    (hf : Accessor.follow slot a = .ok inner) (hv : v.throughout c = true) (hk : v.kind = inner.kind) :
    (replaceAt slot a v).throughout c = true ∧ (replaceAt slot a v).kind = slot.kind := by
  unfold Accessor.follow at hf
  split at hf
  · split at hf
    · cases hf
      exact ⟨hc.replaceMember_throughout hslot hv ‹_› hk, rfl⟩
    · cases hf
  · split at hf
    · cases hf
      exact ⟨hc.replaceItem_throughout hslot hv ‹_› hk, rfl⟩
    · cases hf
  · cases hf
  · cases hf

variable {rhs : Operand} (hrhs : rhs.value.throughout c = true)

include hrhs

/-- `existing op= rhs` gives an accepted value of the kind of `existing`: converted back to the
old value's type, or, for an old value of no declared type, as the operator leaves it. -/
theorem combine_preserves {existing : Value} (hex : existing.throughout c = true) (op : AssignOp)
    (target : DeclaredType) :
    Preserves c (fun v => v.throughout c = true ∧ v.kind = existing.kind)
      (combine existing op rhs target) := by
  unfold Assign.combine
  extract_lets want rest
  -- with no declared type the operator itself keeps the kind
  have hl : ∀ bop env, Scratch.Leaves (fun v => DeclaredType.of existing = .any → v.kind = existing.kind)
      (Binary.apply env bop { value := existing } rhs) := by
    intro bop env
    by_cases hany : DeclaredType.of existing = .any
    · exact (Binary.apply_untyped env bop hany).mono fun v hv _ => hv
    · exact fun _ _ _ h => absurd h hany
  have hrest : ∀ bop, Preserves c (fun v => v.throughout c = true ∧ v.kind = existing.kind)
      (rest bop) := by
    intro bop
    dsimp only [rest, want]
    refine (Preserves.operate hc.null_throughout (fun env => Binary.apply_keeps hc env bop hex hrhs)
      (hl bop)).bind fun out hout => ?_
    split
    · rename_i hpick
      refine Preserves.pure ⟨hout.1, ?_⟩
      by_cases hany : DeclaredType.of existing = .any
      · exact hout.2 hany
      · -- the result already has the old value's type
        have heq : DeclaredType.of out = DeclaredType.of existing := by
          have hnot : (DeclaredType.of existing).isAny = false := by
            cases h : (DeclaredType.of existing).isAny
            · rfl
            · exact absurd (DeclaredType.isAny_eq_true.1 h) hany
          rw [hnot, Bool.false_or] at hpick
          exact DeclaredType.eq_of_beq hpick
        exact DeclaredType.kind_eq_of_of heq hany
    · rename_i hpick
      have hany : DeclaredType.of existing ≠ .any := fun h =>
        hpick (by rw [DeclaredType.isAny_eq_true.2 h, Bool.true_or])
      refine Preserves.bind Preserves.dataset fun ds _ => Preserves.lift fun v hv => ?_
      exact ⟨hc.convert_throughout hout.1 hv, DeclaredType.kind_eq_of_of (of_convert hv hany) hany⟩
  split
  · exact (Preserves.pure (R := fun _ => True) trivial).bind fun bop _ => hrest bop
  · exact (Preserves.fail (R := fun _ => True) _).bind fun bop _ => hrest bop

theorem update_preserves {slot : Value} (hslot : slot.throughout c = true) (op : AssignOp)
    (want : DeclaredType) : Preserves c (fun v => v.throughout c = true) (update slot op rhs want) := by
  unfold Assign.update
  split
  · refine Preserves.ite ?_ (Preserves.bind Preserves.dataset fun _ _ =>
      Preserves.bind (Preserves.lift fun o ho => hc.conform_throughout hrhs ho) fun o ho =>
        Preserves.pure ho)
    split
    · exact Preserves.pure (hc.empty?_throughout ‹_›)
    · exact Preserves.fail _
  · exact Preserves.lift fun v hv => (fill_throughout hc hv).1
  · exact (combine_preserves hc hrhs hslot _ _).mono fun v hv => hv.1

omit hc hrhs in
/-- A new variable holding an accepted value keeps the workspace accepted. -/
theorem insertVar_preserves {ws : Workspace} (hws : ws.Every c) (name : String) {w : Value}
    (hw : w.throughout c = true) :
    Preserves c (fun _ => True) (do
      let (vars, _) ← liftData (ws.vars.insert name w)
      set { ws with vars } : WriteM PUnit) := by
  refine Preserves.bind (Preserves.liftData (R := fun r => r.1.Every c) fun r hr => ?_)
    fun r hr => ?_
  · exact hws.vars.insert hw (i := r.2) hr
  · exact Preserves.set ⟨hr, hws.functions⟩

/-- The first assignment to a name stores an accepted value in a new variable, or a dataset
series. -/
theorem define_preserves (name : String) (op : AssignOp) (target : DeclaredType) :
    Preserves c (fun _ => True) (define name op rhs target) := by
  unfold Assign.define
  extract_lets store value
  have hstore : ∀ v, v.throughout c = true → Preserves c (fun _ => True) (store v) := by
    intro v hv
    dsimp only [store]
    refine Preserves.get.bind fun ws hws => ?_
    -- a new variable gets the value; a new dataset series holds no value
    split
    · split
      · exact Preserves.bind (Preserves.liftData (R := fun _ => True) fun _ _ => trivial) fun r _ =>
          Preserves.set (hws.of_eq rfl rfl)
      · exact insertVar_preserves hws name (hc.series_throughout _)
    · exact insertVar_preserves hws name hv
  have hvalue : ∀ u, Preserves c (fun _ => True) (value u) := by
    intro u
    dsimp only [value]
    split
    · split
      · exact (Preserves.pure (R := fun v => v.throughout c = true) (hc.empty?_throughout ‹_›)).bind hstore
      · exact (Preserves.fail _).bind hstore
    · exact Preserves.dataset.bind fun _ _ =>
        (Preserves.lift fun o ho => hc.conform_throughout hrhs ho).bind fun o ho =>
          (Preserves.pure (R := fun v => v.throughout c = true) ho).bind hstore
  exact Preserves.ite ((Preserves.fail (R := fun _ => True) _).bind fun u _ => hvalue u) (hvalue ())

omit hrhs in
/-- An element stored by `Elements.set`, which checks its kind, keeps the array accepted. -/
theorem setElement_preserves {e : Elements} (he : e.toValue.throughout c = true) (p : Nat)
    (v : Value) (hv : v.throughout c = true) :
    Preserves c (fun e' => e'.toValue.throughout c = true)
      (match e.set p v with
        | .ok e => pure e
        | .error f => WriteM.fail f : WriteM Elements) := by
  split
  · exact Preserves.pure (hc.set_throughout he hv ‹_›)
  · exact Preserves.fail _

/-- An array with one element written keeps the array accepted. -/
theorem writeElement_preserves {e : Elements} (he : e.toValue.throughout c = true) (args : List Subscript)
    (op : AssignOp) (t : Target) :
    Preserves c (fun e' => e'.toValue.throughout c = true) (writeElement e args op rhs t) := by
  have F := Preserves.closed (c := c)
  -- the element written over is in the array, or null past its end
  have hex : ∀ p, (e.items.getD p .null).throughout c = true := by
    intro p
    rw [List.getD_eq_getElem?_getD]
    cases hp : e.items[p]? with
    | none => exact hc.null_throughout
    | some v => exact ((Value.throughout_array _ _).1 he).2 v (List.mem_of_getElem? hp)
  unfold Assign.writeElement
  extract_lets rest
  have hrest : ∀ i, Preserves c (fun e' => e'.toValue.throughout c = true) (rest i) := by
    intro i
    dsimp only [rest]
    refine (F.lift _).bind fun p _ => ?_
    refine Preserves.ite (Preserves.ite ?_ ?_) (Preserves.ite ?_ ?_)
    · split
      · exact (Preserves.pure (R := fun v => v.throughout c = true)
          (hc.emptyElement_throughout _)).bind (setElement_preserves hc he p)
      · exact (Preserves.fail (R := fun v => v.throughout c = true) _).bind (setElement_preserves hc he p)
    · exact (Preserves.pure (R := fun v => v.throughout c = true) hrhs).bind (setElement_preserves hc he p)
    · exact (Preserves.lift fun v hv => (fill_throughout hc hv).1).bind (setElement_preserves hc he p)
    · exact ((combine_preserves hc hrhs (hex p) _ _).mono fun v hv => hv.1).bind (setElement_preserves hc he p)
  split
  · exact (F.pure _).bind fun i _ => hrest i
  · exact (F.fail _).bind fun i _ => hrest i

/-- A bundle with one member written keeps the bundle accepted. -/
theorem writeMember_preserves {ms : Members} (hms : (Value.bundle ms).throughout c = true)
    (key : String) (op : AssignOp) (t : Target) :
    Preserves c (fun ms' => (Value.bundle ms').throughout c = true) (writeMember ms key op rhs t) := by
  unfold Assign.writeMember
  by_cases hnull : (op == .assign && rhs.value.isNull) = true
  · -- null empties the member, or removes it where the type has no empty value
    rw [if_pos hnull]
    split
    · exact Preserves.pure
        (hc.insert_throughout hms (hc.empty?_throughout ‹_›) (DeclaredType.empty?_isNull ‹_›))
    · exact Preserves.pure (hc.remove_throughout key hms)
  rw [if_neg hnull]
  extract_lets plain
  by_cases hinf : op.isInflected = true
  · rw [if_pos hinf]
    split
    · exact (Preserves.fail (R := fun _ => False) _).bind fun _ h => h.elim
    · rename_i existing hget
      -- the member written over keeps its kind
      have hex : existing.throughout c = true :=
        ((Value.throughout_bundle _).1 hms).2 _ (Members.mem_of_get? hget)
      have stored : ∀ v : Value, v.throughout c = true ∧ v.kind = existing.kind →
          Preserves c (fun ms' => (Value.bundle ms').throughout c = true)
            (pure (ms.insert key v).1 : WriteM Members) :=
        fun v hv => Preserves.pure (hc.replaceMember_throughout hms hv.1 hget hv.2)
      refine Preserves.ite ?_ ?_
      · exact (Preserves.lift fun v hv => fill_throughout hc hv).bind stored
      · exact (combine_preserves hc hrhs hex op _).bind stored
  · rw [if_neg hinf]
    -- what is left is a plain assignment of a value that is not null
    have hop := AssignOp.eq_assign_of_isInflected (Bool.eq_false_iff.2 hinf)
    have hn : rhs.value.isNull = false := by
      cases h : rhs.value.isNull
      · rfl
      · exact absurd (by rw [hop, h]; rfl) hnull
    dsimp only [plain]
    exact (Preserves.lift (R := fun o : Operand => o.value.throughout c = true ∧ o.value.isNull = false)
      fun o ho => ⟨hc.conform_throughout hrhs ho, conform_isNull ho hn⟩).bind fun o ho =>
        Preserves.pure (hc.insert_throughout hms ho.1 ho.2)

omit hrhs in
/-- A block spliced into a matrix keeps its layout, so the matrix stays sound. -/
theorem writeBlock_preserves {m : Matrix} (hm : (Value.matrix m).throughout c = true)
    (args : List Subscript) (op : AssignOp) (t : Target) :
    Preserves c (fun m' => (Value.matrix m').throughout c = true) (writeBlock m args op rhs t) := by
  have F := Preserves.closed (c := c)
  unfold Assign.writeBlock
  refine (F.lift _).bind fun sel _ => ?_
  extract_lets splice read current
  -- every way to the block ends in splicing it in, which is where the result comes from
  have hsplice : ∀ block, Preserves c (fun m' => (Value.matrix m').throughout c = true)
      (splice block) := fun block => Preserves.lift fun m' h =>
    hc.matrix_of_one hm fun hs => hs.of_layout (Selection.splice_sameLayout h)
  have hread : ∀ u, Preserves c (fun m' => (Value.matrix m').throughout c = true) (read u) := by
    intro u
    dsimp only [read]
    refine (F.lift _).bind fun _ _ => ?_
    split
    · exact (F.pure _).bind fun b _ => hsplice b
    · exact (F.fail _).bind fun b _ => hsplice b
  split
  · exact Preserves.ite ((F.fail _).bind fun u _ => hread u) (hread ())
  · refine (F.lift _).bind fun _ _ => (F.operate _ _).bind fun out _ => ?_
    split
    · exact (F.pure _).bind fun b _ => hsplice b
    · exact (F.pure _).bind fun b _ => hsplice b
    · exact (F.fail _).bind fun b _ => hsplice b

/-- The last step of a write keeps the slot accepted and of its kind. -/
theorem writeLeaf_preserves {slot : Value} (hslot : slot.throughout c = true) (step : Step)
    (op : AssignOp) (t : Target) :
    Preserves c (fun v => v.throughout c = true ∧ v.kind = slot.kind)
      (writeLeaf slot step op rhs t) := by
  have F := Preserves.closed (c := c)
  unfold Assign.writeLeaf
  dsimp only
  refine (F.lift _).bind fun _ _ => ?_
  split
  · exact (writeMember_preserves hc hrhs hslot _ _ _).bind fun _ h => Preserves.pure ⟨h, rfl⟩
  · split
    · exact Preserves.fail _
    · -- a subscript writes into an element, a character, a block or an observation
      split
      · exact (writeElement_preserves (e := ⟨_, _⟩) hc hrhs hslot _ _ _).bind fun _ h =>
          Preserves.pure ⟨h, rfl⟩
      · exact (F.lift _).bind fun _ _ => Preserves.pure ⟨hc.list_throughout _, rfl⟩
      · exact (F.lift _).bind fun _ _ => Preserves.pure ⟨hc.str_throughout _, rfl⟩
      · exact (writeBlock_preserves hc hslot _ _ _).bind fun _ h => Preserves.pure ⟨h, rfl⟩
      · exact (F.lift _).bind fun _ _ => (F.lift _).bind fun _ _ => (F.lift _).bind fun _ _ =>
          (F.note _).bind fun _ _ => Preserves.pure ⟨hc.series_throughout _, rfl⟩
      · exact Preserves.fail _

/-- Writing through the steps of a place keeps every value on the way accepted, and, below
the variable itself, of the kind it had. -/
theorem writeInto_preserves {slot : Value} (hslot : slot.throughout c = true) (op : AssignOp)
    (t : Target) (steps : List Step) :
    Preserves c (fun v => v.throughout c = true ∧ (steps ≠ [] → v.kind = slot.kind))
      (writeInto slot op rhs t steps) := by
  have F := Preserves.closed (c := c)
  revert hslot
  fun_induction Assign.writeInto slot op rhs t steps with
  | case1 slot =>
    intro hslot
    exact (update_preserves hc hrhs hslot _ _).mono fun v hv => ⟨hv, fun h => absurd rfl h⟩
  | case2 slot step =>
    intro hslot
    exact (writeLeaf_preserves hc hrhs hslot _ _ _).mono fun v hv => ⟨hv.1, fun _ => hv.2⟩
  | case3 slot step rest hrest ih =>
    intro hslot
    refine (F.lift _).bind fun _ _ => ?_
    split
    · exact Preserves.fail _
    · rename_i a
      -- the value reached is written into, then put back in its place
      refine (Preserves.lift (R := fun inner => Accessor.follow slot a = .ok inner)
        fun _ h => h).bind fun inner hinner => ?_
      refine (ih inner (Value.throughout_follow hslot hinner)).bind fun v hv => Preserves.pure ?_
      have hput := replaceAt_throughout hc hslot hinner hv.1 (hv.2 hrest)
      exact ⟨hput.1, fun _ => hput.2⟩

/-- Assigning to a whole variable, a dataset series or a new name keeps the stores accepted. -/
theorem whole_preserves (place : Place) (op : AssignOp) (target : DeclaredType) :
    Preserves c (fun _ => True) (whole place op rhs target) := by
  have F := Preserves.closed (c := c)
  unfold Assign.whole
  split
  · exact define_preserves hc hrhs _ _ _
  · exact F.writeSeries Preserves.putSeries _ _ _ _ _
  · refine Preserves.get.bind fun ws hws => ?_
    split
    · exact Preserves.fail _
    · rename_i slot hget
      extract_lets kind want store
      have hstore : ∀ u, Preserves c (fun _ => True) (store u) := fun _ =>
        (update_preserves hc hrhs (hws.vars _ _ hget) _ _).bind fun _ hv =>
          Preserves.modify fun _ hws' => ⟨hws'.vars.setSlot hv _, hws'.functions⟩
      exact Preserves.ite ((Preserves.fail (R := fun _ => True) _).bind fun u _ => hstore u)
        (hstore ())

/-- Assigning through member and subscript steps keeps the stores accepted. -/
theorem nested_preserves (place : Place) (op : AssignOp) (target : DeclaredType) :
    Preserves c (fun _ => True) (nested place op rhs target) := by
  have F := Preserves.closed (c := c)
  unfold Assign.nested
  split
  · split
    · exact F.dataset.bind fun _ _ => (F.lift _).bind fun _ _ =>
        F.writeObs Preserves.putSeries _ _ _ _ _
    · exact Preserves.fail _
  · refine Preserves.get.bind fun ws hws => ?_
    split
    · exact Preserves.fail _
    · rename_i slot hget
      exact (writeInto_preserves hc hrhs (hws.vars _ _ hget) _ _ _).bind fun _ hv =>
        Preserves.modify fun _ hws' => ⟨hws'.vars.setSlot hv.1 _, hws'.functions⟩
  · exact Preserves.fail _

/-- An assignment of an accepted value keeps every stored value accepted. -/
theorem write_preserves (place : Place) (op : AssignOp) (target : DeclaredType) :
    Preserves c (fun _ => True) (write place op rhs target) :=
  Preserves.ite (whole_preserves hc hrhs _ _ _) (nested_preserves hc hrhs _ _ _)

end Assign

end SeriesCalc
