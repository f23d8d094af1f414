import SeriesCalc.Eval.Binary
import SeriesCalc.Proofs.Values.Invariant

/-!
# Operators keep their cell

An operator runs over a `Scratch`: the content of its position's cell and the warning log. It
writes the cell with `OpM.put`, possibly several times, and it may fail after a write, which
then stays in the cell. So the fact to carry is about every run, returning or failing:

* `Scratch.Keeps c x`: every run of `x` from a cell satisfying `c` throughout leaves a cell
  satisfying it (`Value.throughout`);
* `Scratch.Yields R x`: every value `x` returns satisfies `R`, which is what a later write
  needs to know of the values computed before it (the operands read, the entries computed).

Given a check that evaluation keeps (`Value.Invariant c`) and operands satisfying it, the
operators keep their cell: the unary operators (`Numeric.unary_keeps`), the operators on
strings, lists, bundles and arrays (`Collections.arrays_keeps`, ...), the operators with a
matrix side (`MatrixOps.apply_keeps`) and every binary operator (`Binary.apply_keeps`).
-/

namespace SeriesCalc

namespace Scratch

variable {ε α β : Type}

/-- Run an operator body over a scratch: its result and the scratch after it. -/
def exec (x : ExceptT ε (StateM Scratch) α) (s : Scratch) : Except ε α × Scratch := (x.run).run s

@[simp] theorem exec_pure (a : α) (s : Scratch) :
    exec (pure a : ExceptT ε (StateM Scratch) α) s = (.ok a, s) := rfl

@[simp] theorem exec_throw (e : ε) (s : Scratch) :
    exec (throw e : ExceptT ε (StateM Scratch) α) s = (.error e, s) := rfl

theorem exec_bind (x : ExceptT ε (StateM Scratch) α) (f : α → ExceptT ε (StateM Scratch) β)
    (s : Scratch) :
    exec (x >>= f) s = match (exec x s).1 with
      | .ok a => exec (f a) (exec x s).2
      | .error e => (.error e, (exec x s).2) := by
  simp only [exec, ExceptT.run_bind, StateT.run_bind]
  generalize StateT.run (ExceptT.run x) s = p
  obtain ⟨r, s'⟩ := p
  cases r <;> rfl

/-- Every run of `x` from a cell satisfying `c` throughout leaves such a cell, whether it
returns or fails. -/
def Keeps (c : Value → Bool) (x : ExceptT ε (StateM Scratch) α) : Prop :=
  ∀ s : Scratch, s.cell.throughout c = true → (exec x s).2.cell.throughout c = true

/-- Every value `x` returns satisfies `R`. -/
def Yields (R : α → Prop) (x : ExceptT ε (StateM Scratch) α) : Prop :=
  ∀ s a, (exec x s).1 = .ok a → R a

namespace Yields

variable {x : ExceptT ε (StateM Scratch) α} {f : α → ExceptT ε (StateM Scratch) β}
  {R R' : α → Prop} {S : β → Prop}

theorem trivial (x : ExceptT ε (StateM Scratch) α) : Yields (fun _ => True) x := fun _ _ _ => True.intro

protected theorem pure {a : α} (h : R a) : Yields R (pure a : ExceptT ε (StateM Scratch) α) :=
  fun _ _ ha => by
    cases ha
    exact h

protected theorem throw (e : ε) : Yields R (throw e : ExceptT ε (StateM Scratch) α) :=
  fun _ _ ha => by cases ha

theorem mono (h : Yields R x) (hR : ∀ a, R a → R' a) : Yields R' x :=
  fun s a ha => hR a (h s a ha)

protected theorem bind (hx : Yields R x) (hf : ∀ a, R a → Yields S (f a)) : Yields S (x >>= f) := by
  intro s b hb
  rw [exec_bind] at hb
  cases h : (exec x s).1 with
  | ok a =>
    rw [h] at hb
    exact hf a (hx s a h) _ b hb
  | error e =>
    rw [h] at hb
    cases hb

/-- A fold whose steps keep an invariant of the accumulator and the elements still to come. -/
protected theorem foldlM {γ : Type} {step : γ → β → ExceptT ε (StateM Scratch) γ}
    (I : List β → γ → Prop) (hstep : ∀ b l acc, I (b :: l) acc → Yields (I l) (step acc b)) :
    ∀ (l : List β) (init : γ), I l init → Yields (I []) (l.foldlM step init)
  | [], _, h => Yields.pure h
  | b :: l, init, h => by
    rw [List.foldlM_cons]
    exact (hstep b l init h).bind fun acc hacc => Yields.foldlM I hstep l acc hacc

/-- Every element of a mapped list satisfies what each call yields. -/
protected theorem mapM {f : β → ExceptT ε (StateM Scratch) α} :
    ∀ (l : List β), (∀ b ∈ l, Yields R (f b)) → Yields (fun as => ∀ a ∈ as, R a) (l.mapM f)
  | [], _ => Yields.pure (by simp)
  | b :: l, h => by
    rw [List.mapM_cons]
    refine (h b List.mem_cons_self).bind fun a ha => ?_
    refine (Yields.mapM l fun b' hb' => h b' (List.mem_cons_of_mem _ hb')).bind fun as has => ?_
    exact Yields.pure fun a' ha' => by
      rcases List.mem_cons.1 ha' with rfl | ha'
      · exact ha
      · exact has a' ha'

end Yields

namespace Keeps

variable {c : Value → Bool} {x : ExceptT ε (StateM Scratch) α} {f : α → ExceptT ε (StateM Scratch) β}
  {R : α → Prop}

/-- A step that leaves the cell alone keeps it. -/
theorem of_cell (h : ∀ s, (exec x s).2.cell = s.cell) : Keeps c x := fun s hs => (h s) ▸ hs

protected theorem pure (a : α) : Keeps c (pure a : ExceptT ε (StateM Scratch) α) := of_cell fun _ => rfl

protected theorem throw (e : ε) : Keeps c (throw e : ExceptT ε (StateM Scratch) α) :=
  of_cell fun _ => rfl

protected theorem bind (hx : Keeps c x) (hy : Yields R x) (hf : ∀ a, R a → Keeps c (f a)) :
    Keeps c (x >>= f) := by
  intro s hs
  rw [exec_bind]
  cases h : (exec x s).1 with
  | ok a => exact hf a (hy s a h) _ (hx s hs)
  | error e => exact hx s hs

/-- A bind whose second step keeps the cell whatever the first returned. -/
theorem bind' (hx : Keeps c x) (hf : ∀ a, Keeps c (f a)) : Keeps c (x >>= f) :=
  hx.bind (Yields.trivial x) fun a _ => hf a

/-- Writing an accepted value. -/
theorem write {v : Value} (hv : v.throughout c = true) :
    Keeps c (modify fun s : Scratch => { s with cell := v } : ExceptT ε (StateM Scratch) PUnit) :=
  fun _ _ => hv

protected theorem ite {p : Prop} [Decidable p] {y : ExceptT ε (StateM Scratch) α} (hx : Keeps c x)
    (hy : Keeps c y) : Keeps c (if p then x else y) := by
  split
  · exact hx
  · exact hy

/-- A step taken only when `p` holds, then the rest in either case: how a do block runs an
`if` without `else`, through a join point `k`. -/
theorem join {p : Prop} [Decidable p] {x : ExceptT ε (StateM Scratch) Unit}
    {k : Unit → ExceptT ε (StateM Scratch) β} (hx : Keeps c x) (hk : Keeps c (k ())) :
    Keeps c (if p then x >>= k else k ()) :=
  Keeps.ite (hx.bind' fun _ => hk) hk

/-- A fold whose steps keep the cell keeps it. -/
protected theorem foldlM {γ : Type} {step : γ → β → ExceptT ε (StateM Scratch) γ}
    (hstep : ∀ acc b, Keeps c (step acc b)) :
    ∀ (l : List β) (init : γ), Keeps c (l.foldlM step init)
  | [], _ => Keeps.pure _
  | b :: l, init => by
    rw [List.foldlM_cons]
    exact (hstep init b).bind' fun acc => Keeps.foldlM hstep l acc

protected theorem mapM {f : β → ExceptT ε (StateM Scratch) α} (hf : ∀ b, Keeps c (f b)) :
    ∀ (l : List β), Keeps c (l.mapM f)
  | [] => Keeps.pure _
  | b :: l => by
    rw [List.mapM_cons]
    exact (hf b).bind' fun _ => (Keeps.mapM hf l).bind' fun _ => Keeps.pure _

end Keeps

end Scratch

/-- Every operand an operator reads from another cell satisfies `c` throughout. -/
def OpEnv.Reads (c : Value → Bool) (env : OpEnv) : Prop :=
  ∀ id o, env.read id = .ok o → o.value.throughout c = true

namespace OpM

open Scratch

variable {c : Value → Bool} {α : Type}

theorem put_keeps {v : Value} (hv : v.throughout c = true) : Keeps c (put v) := Keeps.write hv

theorem fail_keeps (f : Fault) : Keeps c (fail f : OpM α) := Keeps.throw _

theorem lift_keeps (r : Except EvalError α) : Keeps c (lift r) :=
  Keeps.of_cell fun _ => by cases r <;> rfl

theorem liftFault_keeps (r : Except Fault α) : Keeps c (liftFault r) :=
  Keeps.of_cell fun _ => by cases r <;> rfl

theorem warned_keeps (w : Warned α) : Keeps c (warned w) := Keeps.of_cell fun _ => rfl

theorem read_keeps (env : OpEnv) (id : Nat) : Keeps c (read env id) := lift_keeps _

theorem lift_yields {r : Except EvalError α} {R : α → Prop} (h : ∀ a, r = .ok a → R a) :
    Yields R (lift r) := fun s a ha => by
  cases r with
  | ok b => exact h a (by cases ha; rfl)
  | error e => cases ha

theorem liftFault_yields {r : Except Fault α} {R : α → Prop} (h : ∀ a, r = .ok a → R a) :
    Yields R (liftFault r) := fun s a ha => by
  cases r with
  | ok b => exact h a (by cases ha; rfl)
  | error e => cases ha

theorem warned_yields {w : Warned α} {R : α → Prop} (h : ∀ log, R (w.run log).1) :
    Yields R (warned w) := fun s a ha => by
  cases ha
  exact h s.log

/-- An operand read from another cell satisfies `c` throughout. -/
theorem read_yields {env : OpEnv} (h : env.Reads c) (id : Nat) :
    Yields (fun o : Operand => o.value.throughout c = true) (read env id) :=
  lift_yields fun o ho => h id o ho

end OpM

/-- A fold that pushes one entry per element builds as many entries as it has elements. -/
theorem size_foldlM_push {σ γ β : Type} (step : Array γ → β → StateM σ (Array γ))
    (hstep : ∀ acc b s, ((step acc b).run s).1.size = acc.size + 1) :
    ∀ (l : List β) (init : Array γ) (s : σ), ((l.foldlM step init).run s).1.size = init.size + l.length
  | [], init, s => rfl
  | b :: l, init, s => by
    have h := size_foldlM_push step hstep l ((step init b).run s).1 ((step init b).run s).2
    rw [hstep] at h
    rw [List.foldlM_cons]
    -- the first step, then the rest from its result
    show ((List.foldlM step ((step init b).run s).1 l).run ((step init b).run s).2).1.size = _
    rw [h, List.length_cons]
    omega

namespace Numeric

open Scratch

variable {c : Value → Bool} (hc : Value.Invariant c) (env : OpEnv)

include hc

theorem scalar_keeps (op : BinaryOp) (x y : Float) : Keeps c (scalar env op x y) :=
  (OpM.warned_keeps _).bind' fun _ => OpM.put_keeps (hc.scalar_throughout _)

theorem series_keeps (op : BinaryOp) (a b : Operand) : Keeps c (series env op a b) := by
  unfold series
  split
  · exact (OpM.warned_keeps _).bind' fun _ => OpM.put_keeps (hc.series_throughout _)
  · split <;> exact OpM.fail_keeps _

/-- A unary operator gives a number, a series, or a matrix sound whenever its operand is. -/
theorem unary_keeps (op : UnaryOp) {x : Operand} (hx : x.value.throughout c = true) :
    Keeps c (unary env op x) := by
  unfold unary
  split
  · exact OpM.put_keeps (hc.scalar_throughout _)
  · rw [‹x.value = Value.matrix _›] at hx
    exact (OpM.liftFault_keeps _).bind' fun _ =>
      OpM.put_keeps (hc.matrix_of_one hx fun _ => Matrix.sound_transpose _)
  · exact OpM.fail_keeps _
  · exact OpM.put_keeps (hc.scalar_throughout _)
  · exact (OpM.liftFault_keeps _).bind' fun _ => OpM.put_keeps (hc.series_throughout _)
  · rw [‹x.value = Value.matrix _›] at hx
    -- a complex matrix keeps its entries' places; a real result has one entry per position
    split
    · rename_i zs hzs _
      exact OpM.put_keeps (hc.matrix_of_one hx fun hs =>
        hs.of_layout ⟨rfl, rfl, by simp [Entries.size, hzs]⟩)
    · rename_i zs hzs _
      exact OpM.put_keeps (hc.matrix_of_one hx fun hs =>
        hs.of_layout ⟨rfl, rfl, by simp [Entries.size, hzs]⟩)
    · exact OpM.put_keeps
        (hc.matrix_throughout (Matrix.sound_of_size (by simp [Entries.size, Matrix.size])))
  · exact OpM.fail_keeps _

end Numeric

namespace Collections

open Scratch

/-- The fold that builds a string set appends `.str s` or nothing, so it keeps an accumulator of
strings made of strings. -/
theorem str_of_mem_dedupFold : ∀ (l acc : List Value), (∀ v ∈ acc, ∃ s, v = .str s) →
    ∀ v ∈ l.foldl (fun acc v => match v.str? with
      | some s => if acc.any (·.str? == some s) then acc else acc ++ [.str s]
      | none => acc) acc, ∃ s, v = .str s := by
  intro l
  induction l with
  | nil => exact fun acc h => h
  | cons w rest ih =>
    intro acc hacc
    refine ih _ fun v hv => ?_
    dsimp only at hv
    split at hv
    · split at hv
      · exact hacc v hv
      · rcases List.mem_append.1 hv with hv | hv
        · exact hacc v hv
        · exact ⟨_, List.mem_singleton.1 hv⟩
    · exact hacc v hv

/-- A union or intersection of string arrays holds strings only. -/
theorem stringSet_strings {op : BinaryOp} {x y e : Elements} (h : stringSet op x y = .ok e) :
    e = ⟨some .strings, e.items⟩ ∧ ∀ v ∈ e.items, ∃ s, v = .str s := by
  unfold stringSet at h
  split at h
  · cases h
  · cases h
    exact ⟨rfl, str_of_mem_dedupFold _ [] (by simp)⟩

/-- The result of an array update is written when there is one. -/
theorem result_keeps {c : Value → Bool} {r : Except Fault Elements}
    (hr : ∀ e, r = .ok e → e.toValue.throughout c = true) :
    Keeps c (match r with
      | .ok e => OpM.put e.toValue
      | .error f => OpM.fail f) := by
  split
  · exact OpM.put_keeps (hr _ rfl)
  · exact OpM.fail_keeps _

variable {c : Value → Bool} (hc : Value.Invariant c)

include hc

theorem strings_keeps (env : OpEnv) (op : BinaryOp) (a b : Operand) :
    Keeps c (strings env op a b) := by
  unfold strings
  split
  · exact OpM.put_keeps (hc.str_throughout _)
  · exact OpM.put_keeps (hc.str_throughout _)
  · exact OpM.put_keeps (hc.scalar_throughout _)
  · exact OpM.put_keeps (hc.scalar_throughout _)
  · exact OpM.fail_keeps _
  · exact Keeps.ite (OpM.fail_keeps _) (OpM.put_keeps (hc.str_throughout _))
  · exact OpM.put_keeps (hc.series_throughout _)
  · exact OpM.put_keeps (hc.series_throughout _)
  · exact OpM.put_keeps (hc.series_throughout _)
  · exact OpM.put_keeps (hc.series_throughout _)
  · exact OpM.fail_keeps _

theorem lists_keeps (op : BinaryOp) (a b : Operand) : Keeps c (lists op a b) := by
  unfold lists
  split
  · split
    · exact OpM.put_keeps (hc.list_throughout _)
    · exact OpM.put_keeps (hc.list_throughout _)
    · exact OpM.put_keeps (hc.list_throughout _)
    · exact OpM.put_keeps (hc.list_throughout _)
    · exact OpM.put_keeps (hc.list_throughout _)
    · exact OpM.fail_keeps _
  · exact OpM.fail_keeps _

theorem bundles_keeps (op : BinaryOp) {a b : Operand} (ha : a.value.throughout c = true)
    (hb : b.value.throughout c = true) : Keeps c (bundles op a b) := by
  unfold bundles
  split
  · rename_i x y hx hy
    rw [hx] at ha
    rw [hy] at hb
    exact OpM.put_keeps (hc.union_throughout ha hb)
  · exact OpM.fail_keeps _

theorem arrays_keeps (op : BinaryOp) {a b : Operand} (ha : a.value.throughout c = true)
    (hb : b.value.throughout c = true) : Keeps c (arrays op a b) := by
  unfold arrays
  split
  · exact OpM.fail_keeps _
  · rename_i x hx
    have hxv : x.toValue.throughout c = true := by
      rw [← Elements.eq_toValue_of_ofValue? hx]
      exact ha
    split
    · rename_i y hy
      have hyv : y.toValue.throughout c = true := by
        rw [← Elements.eq_toValue_of_ofValue? hy]
        exact hb
      split
      · exact result_keeps fun e he => hc.extend_throughout hxv hyv he
      · exact result_keeps fun e he => hc.push_throughout hxv hb he
    · split
      · exact OpM.fail_keeps _
      · exact result_keeps fun e he => hc.push_throughout hxv hb he
    · exact result_keeps fun e he => by
        obtain ⟨he', hs⟩ := stringSet_strings he
        rw [he']
        exact hc.strings_throughout hs
    · exact result_keeps fun e he => by
        obtain ⟨he', hs⟩ := stringSet_strings he
        rw [he']
        exact hc.strings_throughout hs
    · exact OpM.fail_keeps _

end Collections

/-- The matrix view of an accepted operand is accepted: the matrix itself, a scalar as `1 × 1`,
or the sample of a series as a column. -/
theorem asMatrix?_throughout {c : Value → Bool} (hc : Value.Invariant c) {o : Operand} {ds : Dataset}
    {m : Matrix} (ho : o.value.throughout c = true) (h : asMatrix? o ds = .ok (some m)) :
    (Value.matrix m).throughout c = true := by
  unfold asMatrix? at h
  split at h
  · rename_i hm
    cases h
    rwa [hm] at ho
  · cases h
    exact hc.matrix_throughout (Matrix.sound_ofScalar _)
  · obtain ⟨xs, -, h⟩ := Except.bind_eq_ok h
    cases h
    exact hc.matrix_throughout (Matrix.sound_column _)
  · cases h

/-- Reading the matrix view of an accepted operand yields accepted matrices only. -/
theorem asMatrix?_yields {c : Value → Bool} (hc : Value.Invariant c) {o : Operand} (ds : Dataset)
    (ho : o.value.throughout c = true) :
    Scratch.Yields (fun m? => ∀ m, m? = some m → (Value.matrix m).throughout c = true)
      (OpM.liftFault (asMatrix? o ds)) :=
  OpM.liftFault_yields fun _ h _ hm => asMatrix?_throughout hc ho (hm ▸ h)

namespace MatrixOps

open Scratch

variable {c : Value → Bool}

theorem complexStep_keeps (x y : Complex) (op : BinaryOp) : Keeps c (complexStep x y op) := by
  unfold complexStep
  exact (OpM.lift_keeps _).bind' fun _ => (OpM.warned_keeps _).bind' fun _ => Keeps.pure _

theorem stopOverflowing_keeps (op : BinaryOp) (a b : Matrix) (rows cols : Nat) (writes : Bool) :
    Keeps c (stopOverflowing op a b rows cols writes) := by
  unfold stopOverflowing
  dsimp only
  refine Keeps.ite ?_ (OpM.liftFault_keeps _)
  exact (OpM.liftFault_keeps _).bind' fun _ => (complexStep_keeps _ _ _).bind' fun _ =>
    OpM.liftFault_keeps _

/-- A whole-matrix operation writes its result when it has one. -/
theorem whole_keeps {r : Except EvalError Matrix} (h : ∀ m, r = .ok m → (Value.matrix m).throughout c = true) :
    Keeps c (do OpM.put (.matrix (← OpM.lift r)) : OpM Unit) :=
  (OpM.lift_keeps r).bind (OpM.lift_yields h) fun _ hm => OpM.put_keeps hm

/-- The complex entries of an elementwise result, one per position of its shape: the entries
computed so far and those still to come add up to the shape's word product. -/
theorem complexEntries_size (op : BinaryOp) (a b : Matrix) (rows cols : Nat) :
    Yields (fun zs : Array Complex => zs.size = Word.mul rows cols)
      ((List.range (Word.mul rows cols)).foldlM (fun (acc : Array Complex) k => do
        let (ka, kb) := (bidx a (k % rows) (k / rows), bidx b (k % rows) (k / rows))
        return acc.push (← complexStep (a.elemComplex ka) (b.elemComplex kb) op.elementwise))
        (Array.mkEmpty (Word.mul rows cols))) := by
  refine (Yields.foldlM (fun l acc => acc.size + l.length = Word.mul rows cols) ?_ _ _
    (by simp)).mono fun zs h => by simpa using h
  intro k l acc hacc
  exact Yields.bind (Yields.trivial _) fun z _ => Yields.pure (by simp at hacc ⊢; omega)

variable (hc : Value.Invariant c)

include hc

/-- An elementwise result has one entry per position of its shape: a complex computation starts
from complex zeros of that shape, and each step pushes one entry. -/
theorem elementwise_keeps (op : BinaryOp) (a b : Matrix) (dot : Bool) :
    Keeps c (elementwise op a b dot) := by
  unfold elementwise
  refine (OpM.lift_keeps _).bind' fun shape => ?_
  obtain ⟨rows, cols⟩ := shape
  refine Keeps.join (stopOverflowing_keeps _ _ _ _ _ _) ?_
  dsimp only
  split
  · refine (OpM.put_keeps (hc.matrix_throughout (Matrix.sound_reshapeComplex _ _ _))).bind' fun _ => ?_
    refine Keeps.bind (Keeps.foldlM (fun acc k => (complexStep_keeps _ _ _).bind' fun _ =>
      Keeps.pure _) _ _) (complexEntries_size op a b rows cols) fun zs hzs => ?_
    exact OpM.put_keeps (hc.matrix_throughout
      ((Matrix.sameLayout_demoteIfReal _).sound (Matrix.sound_of_size (by simp [Entries.size, hzs, Matrix.size]))))
  · refine (OpM.warned_keeps _).bind (R := fun xs : Array Float => xs.size = Word.mul rows cols)
      (OpM.warned_yields fun log => ?_) fun xs hxs => ?_
    · -- each step pushes one entry
      exact (size_foldlM_push _ (fun acc k s => by exact Array.size_push _) _ _ log).trans (by simp)
    · exact OpM.put_keeps (hc.matrix_throughout
        (Matrix.sound_of_size (by simp [Entries.size, hxs, Matrix.size])))

theorem compareAll_keeps (op : BinaryOp) (a b : Matrix) : Keeps c (compareAll op a b) := by
  unfold compareAll
  refine (OpM.lift_keeps _).bind' fun shape => ?_
  obtain ⟨rows, cols⟩ := shape
  refine Keeps.join (stopOverflowing_keeps _ _ _ _ _ _) ?_
  dsimp only
  refine (Keeps.foldlM (fun all k => ?_) _ _).bind' fun _ => OpM.put_keeps (hc.scalar_throughout _)
  split
  · exact (complexStep_keeps _ _ _).bind' fun _ => (Keeps.pure _).bind' fun _ => Keeps.pure _
  · exact (OpM.warned_keeps _).bind' fun _ => Keeps.pure _

/-- An operator with a matrix side gives a scalar, or a matrix sound whenever its operands are. -/
theorem apply_keeps (env : OpEnv) (op : BinaryOp) {a b : Operand} (ha : a.value.throughout c = true)
    (hb : b.value.throughout c = true) : Keeps c (apply env op a b) := by
  unfold apply
  refine (OpM.liftFault_keeps _).bind (asMatrix?_yields hc _ ha) fun ma? hma => ?_
  refine (OpM.liftFault_keeps _).bind (asMatrix?_yields hc _ hb) fun mb? hmb => ?_
  split
  · rename_i ma mb
    have hma := hma ma rfl
    have hmb := hmb mb rfl
    split
    · exact elementwise_keeps hc _ _ _ _
    · dsimp only
      split
      · exact elementwise_keeps hc _ _ _ _
      · exact elementwise_keeps hc _ _ _ _
      · exact elementwise_keeps hc _ _ _ _
      · exact elementwise_keeps hc _ _ _ _
      · exact elementwise_keeps hc _ _ _ _
      · exact Keeps.ite (elementwise_keeps hc _ _ _ _)
          (whole_keeps fun m h => hc.matrix_throughout (Linalg.matmul_sound h))
      · exact Keeps.ite (elementwise_keeps hc _ _ _ _)
          (whole_keeps fun m h => hc.matrix_throughout (Linalg.rightDivide_sound h))
      · exact Keeps.ite (elementwise_keeps hc _ _ _ _)
          (whole_keeps fun m h => hc.matrix_throughout (Linalg.solve_sound h))
      · refine Keeps.ite (elementwise_keeps hc _ _ _ _) ?_
        split
        · exact whole_keeps fun m h => hc.matrix_throughout (Linalg.power_sound h)
        · exact OpM.fail_keeps _
      · exact compareAll_keeps hc _ _ _
      · exact compareAll_keeps hc _ _ _
      · exact compareAll_keeps hc _ _ _
      · exact compareAll_keeps hc _ _ _
      · exact compareAll_keeps hc _ _ _
      · exact compareAll_keeps hc _ _ _
      · exact whole_keeps fun m h => hc.matrix_of_two hma hmb fun sa sb => Linalg.hcat_sound sa sb h
      · exact whole_keeps fun m h => hc.matrix_of_two hma hmb fun sa sb => Linalg.vcat_sound sa sb h
      · exact whole_keeps fun m h => hc.matrix_throughout (Linalg.kron_sound h)
      · exact OpM.fail_keeps _
  · exact OpM.fail_keeps _

end MatrixOps

namespace Binary

open Scratch

variable {c : Value → Bool} (hc : Value.Invariant c)

include hc

/-- Every binary operator keeps its cell: each family of operands writes what that family
keeps, and a refusal writes nothing. -/
theorem apply_keeps (env : OpEnv) (op : BinaryOp) {a b : Operand} (ha : a.value.throughout c = true)
    (hb : b.value.throughout c = true) : Keeps c (apply env op a b) := by
  have matrix := MatrixOps.apply_keeps hc env op ha hb
  have series := Numeric.series_keeps hc env op a b
  have refuse : Keeps c (OpM.fail (.binaryTypeMismatch op.symbol a.kind b.kind) : OpM Unit) :=
    OpM.fail_keeps _
  unfold apply
  dsimp only
  split
  · exact Collections.strings_keeps hc env op a b
  · exact Collections.strings_keeps hc env op a b
  · exact Collections.arrays_keeps hc op ha hb
  · exact Collections.bundles_keeps hc op ha hb
  · exact Collections.bundles_keeps hc op ha hb
  · exact Collections.lists_keeps hc op a b
  · exact Collections.lists_keeps hc op a b
  · refine Keeps.ite ?_ ?_
    · split
      · exact matrix
      · exact matrix
      · exact refuse
    · split
      · exact Keeps.ite series matrix
      · exact Keeps.ite series matrix
      · exact matrix
      · exact matrix
      · exact Keeps.ite series refuse
      · exact Keeps.ite series refuse
      · exact Keeps.ite series refuse
      · refine Keeps.ite (Numeric.scalar_keeps hc env op _ _) ?_
        split
        · exact matrix
        · exact matrix
        · exact matrix
        · exact refuse
      · exact refuse

end Binary

end SeriesCalc
