import SeriesCalc.Proofs.SeriesConditional
import SeriesCalc.Proofs.Values.Operators

/-!
# Missing values on the numeric paths

Every numeric operator comes down to `Kernel.apply`, one element at a time, so the rules on
missing values are the kernel's.

* `Kernel.apply_warning_of_na`, `Kernel.apply_of_na`: a missing operand warns of nothing, and
  gives NA but for `x * 0` under the zero-times-NA rule, `||` with a known nonzero operand and
  `&&` with a known zero operand.
* The paths: two numbers (`Numeric.scalar_exec`); a series against a series, a number or a
  column (`Numeric.series_exec`: the sample filled, NA outside it); two real matrices on the
  elementwise route (`MatrixOps.elementwise_exec_real`: every offset of the broadcast shape, the
  rule off). Each records its elements' warnings in order (`Warned.foldlM_run`).
* `numeric_elements_follow_kernel` puts these together for `Binary.apply`.
* `matrices_compare_to_one_number`: the matrix family is elementwise only on its route
  (`MatrixOps.elementwiseRoute`). A plain comparison of two matrices gives one number, 1 when
  every element pair compares true, so an NA element makes it 0 rather than NA; `*` of two
  matrices neither of which is 1×1 is the matrix product, `/` by such a matrix a right
  division and `^` of such a base a matrix power.
-/

namespace SeriesCalc

theorem truth?_of_isNaN {x : Float} (h : x.isNaN = true) : truth? x = none := by
  rw [truth?, h]
  rfl

namespace Kernel

variable {op : BinaryOp} {absorb : Bool} {x y : Float}

/-- With a missing operand the kernel warns of nothing: every check that warns comes after the
test for a missing operand. -/
theorem apply_warning_of_na (hna : (x.isNaN || y.isNaN) = true) : (apply op absorb x y).2 = none := by
  unfold apply
  dsimp only
  generalize op.elementwise = e
  cases e <;> dsimp only
  case mul => split <;> rfl
  case or => split <;> rfl
  case and => split <;> rfl
  all_goals rw [if_pos hna]

/-- With a missing operand the result is missing, except `x * 0` and `0 * x` under the
zero-times-NA rule (0), `||` with a known nonzero operand (1) and `&&` with a known zero operand
(0). -/
theorem apply_of_na (hna : (x.isNaN || y.isNaN) = true) :
    (apply op absorb x y).1 = NA ∨
      op.elementwise = .mul ∧ (absorb && (x == 0 || y == 0)) = true ∧ (apply op absorb x y).1 = 0 ∨
      op.elementwise = .or ∧ (truth? x = some true ∨ truth? y = some true) ∧ (apply op absorb x y).1 = 1 ∨
      op.elementwise = .and ∧ (truth? x = some false ∨ truth? y = some false) ∧
        (apply op absorb x y).1 = 0 := by
  have hnone : truth? x = none ∨ truth? y = none := by
    rcases Bool.or_eq_true_iff.mp hna with h | h
    · exact .inl (truth?_of_isNaN h)
    · exact .inr (truth?_of_isNaN h)
  unfold apply
  dsimp only
  generalize op.elementwise = e
  cases e <;> dsimp only
  case mul =>
    by_cases habs : (absorb && (x == 0 || y == 0)) = true
    · exact .inr (.inl ⟨rfl, habs, by rw [if_pos habs]⟩)
    · rw [if_neg habs, if_pos hna]
      exact .inl rfl
  case or =>
    split
    · rename_i hx
      exact .inr (.inr (.inl ⟨rfl, .inl hx, rfl⟩))
    · rename_i hy _
      exact .inr (.inr (.inl ⟨rfl, .inr hy, rfl⟩))
    · rename_i hx hy
      rcases hnone with h | h <;> simp only [h, reduceCtorEq] at hx hy
    · exact .inl rfl
  case and =>
    split
    · rename_i hx
      exact .inr (.inr (.inr ⟨rfl, .inl hx, rfl⟩))
    · rename_i hy _
      exact .inr (.inr (.inr ⟨rfl, .inr hy, rfl⟩))
    · rename_i hx hy
      rcases hnone with h | h <;> simp only [h, reduceCtorEq] at hx hy
    · exact .inl rfl
  all_goals
    rw [if_pos hna]
    exact .inl rfl

/-- The kernel run in the warning log: its result, and its warning recorded if it has one. -/
theorem calc_run (op : BinaryOp) (absorb : Bool) (x y : Float) (l : WarningLog) :
    (Kernel.calc op absorb x y).run l =
      ((apply op absorb x y).1, (apply op absorb x y).2.elim l l.record) := by
  unfold Kernel.calc
  rcases apply op absorb x y with ⟨r, _ | w⟩ <;> rfl

end Kernel

namespace Warned

variable {f : Nat → Warned Float} {g : Nat → Float} {w : Nat → Option Warning}

/-- Building an array from a computation per position that records at most one warning of its
own: the array is built from the values, and the log records the warnings in order. -/
theorem foldlM_run (hf : ∀ t l, (f t).run l = (g t, (w t).elim l l.record))
    (step : Array Float → Nat → Float → Array Float) :
    ∀ (ts : List Nat) (acc : Array Float) (l : WarningLog),
      (ts.foldlM (fun acc t => do return step acc t (← f t)) acc).run l =
        (ts.foldl (fun acc t => step acc t (g t)) acc, (ts.filterMap w).foldl WarningLog.record l)
  | [], acc, l => rfl
  | t :: ts, acc, l => by
    have hstep : (do return step acc t (← f t) : Warned (Array Float)).run l =
        (step acc t (g t), (w t).elim l l.record) := by
      rw [StateT.run_bind, hf]
      rfl
    rw [List.foldlM_cons, StateT.run_bind, hstep]
    change StateT.run (List.foldlM (fun acc t => do return step acc t (← f t)) (step acc t (g t)) ts)
      ((w t).elim l l.record) = _
    rw [foldlM_run hf step ts]
    cases hw : w t <;> simp only [List.foldl_cons, List.filterMap_cons, hw, Option.elim]

end Warned

/-- A filled series records the warnings of the sample's observations in order. -/
theorem fillSeries_run {ds : Dataset} {f : Nat → Warned Float} {g : Nat → Float}
    {w : Nat → Option Warning} (hf : ∀ t l, (f t).run l = (g t, (w t).elim l l.record)) (l : WarningLog) :
    (fillSeries ds f).run l =
      (fillSeriesPure ds g, (ds.sampleRange.filterMap w).foldl WarningLog.record l) :=
  Warned.foldlM_run hf (fun acc t v => acc.set! t v) _ _ _

namespace Scratch

variable {α : Type}

@[simp] theorem exec_put (v : Value) (s : Scratch) : exec (OpM.put v) s = (.ok (), { s with cell := v }) :=
  rfl

@[simp] theorem exec_lift (r : Except EvalError α) (s : Scratch) : exec (OpM.lift r) s = (r, s) := by
  cases r <;> rfl

@[simp] theorem exec_liftFault (r : Except Fault α) (s : Scratch) :
    exec (OpM.liftFault r) s = (Except.mapError (fun f : Fault => (f : EvalError)) r, s) := by
  cases r <;> rfl

@[simp] theorem exec_warned (w : Warned α) (s : Scratch) :
    exec (OpM.warned w) s = (.ok (w.run s.log).1, { s with log := (w.run s.log).2 }) :=
  rfl

end Scratch

namespace Numeric

open Scratch

/-- Two numbers: the kernel with the statement's zero-times-NA rule. -/
theorem scalar_exec (env : OpEnv) (op : BinaryOp) (x y : Float) (s : Scratch) :
    exec (Numeric.scalar env op x y) s =
      (.ok (), { cell := .scalar (Kernel.apply op env.absorb x y).1,
                 log := (Kernel.apply op env.absorb x y).2.elim s.log s.log.record }) := by
  simp only [Numeric.scalar, exec_bind, exec_warned, exec_put, Kernel.calc_run]

/-- Operands that line up as columns: the kernel at every observation of the sample, with the
statement's zero-times-NA rule, and NA outside the sample. -/
theorem series_exec (env : OpEnv) (op : BinaryOp) {a b : Operand} {ca cb : Column}
    (ha : Column.of? a env.ds = some ca) (hb : Column.of? b env.ds = some cb) (s : Scratch) :
    exec (Numeric.series env op a b) s =
      (.ok (), { cell := .series (fillSeriesPure env.ds fun t => (Kernel.apply op env.absorb (ca.at t) (cb.at t)).1),
                 log := (env.ds.sampleRange.filterMap fun t =>
                   (Kernel.apply op env.absorb (ca.at t) (cb.at t)).2).foldl WarningLog.record s.log }) := by
  simp only [Numeric.series, ha, hb, exec_bind, exec_warned, exec_put,
    fillSeries_run fun t l => Kernel.calc_run op env.absorb (ca.at t) (cb.at t) l]

end Numeric

/-- A real matrix, or a number taken as a 1×1 matrix: the operands of the matrix family that
hold real numbers. -/
def Value.realMatrix? : Value → Option Matrix
  | .matrix m => if m.isComplex then none else some m
  | .scalar x => some (Matrix.ofScalar x)
  | _ => none

theorem Value.isComplex_of_realMatrix? {v : Value} {m : Matrix} (h : v.realMatrix? = some m) :
    m.isComplex = false := by
  cases v with
  | matrix n =>
    simp only [realMatrix?] at h
    by_cases hc : n.isComplex = true
    · rw [if_pos hc] at h
      cases h
    · rw [if_neg hc] at h
      cases h
      simpa using hc
  | scalar x =>
    cases h
    rfl
  | _ => cases h

theorem asMatrix?_of_realMatrix? {o : Operand} {m : Matrix} (h : o.value.realMatrix? = some m)
    (ds : Dataset) : asMatrix? o ds = .ok (some m) := by
  unfold asMatrix?
  cases hv : o.value with
  | matrix n =>
    rw [hv] at h
    simp only [Value.realMatrix?] at h
    by_cases hc : n.isComplex = true
    · rw [if_pos hc] at h
      cases h
    · rw [if_neg hc] at h
      cases h
      rfl
  | scalar x =>
    rw [hv] at h
    cases h
    rfl
  | _ =>
    rw [hv] at h
    cases h

namespace MatrixOps

open Scratch

variable {a b : Matrix}

/-- The checks for an overflowing shape of two real matrices read the cell and log nothing. -/
theorem stopOverflowing_state (ha : a.isComplex = false) (hb : b.isComplex = false) (op : BinaryOp)
    (rows cols : Nat) (writes : Bool) (s : Scratch) :
    (exec (stopOverflowing op a b rows cols writes) s).2 = s := by
  simp only [stopOverflowing, ha, hb, Bool.or_false, Bool.false_eq_true, ↓reduceIte, exec_liftFault]

/-- The kernel at offset `k` of an elementwise walk with `rows` rows: the broadcast entries of
`a` and `b` at row `k % rows` and column `k / rows`, without the zero-times-NA rule. -/
def entryAt (op : BinaryOp) (a b : Matrix) (rows k : Nat) : Float × Option Warning :=
  Kernel.apply op false (a.elem (bidx a (k % rows) (k / rows))) (b.elem (bidx b (k % rows) (k / rows)))

/-- The real walk: one entry per offset, the log recording their warnings in order. -/
theorem realWalk_exec (op : BinaryOp) (a b : Matrix) (rows cols : Nat) (s : Scratch) :
    exec (do
        let xs ← OpM.warned ((List.range (Word.mul rows cols)).foldlM (fun acc k => do
          return acc.push (← Kernel.calc op false (a.elem (bidx a (k % rows) (k / rows)))
            (b.elem (bidx b (k % rows) (k / rows))))) (Array.mkEmpty (Word.mul rows cols)))
        OpM.put (.matrix ⟨rows, cols, .real xs, none⟩)) s =
      (.ok (), { cell := .matrix ⟨rows, cols,
                   .real ((List.range (Word.mul rows cols)).map fun k => (entryAt op a b rows k).1).toArray, none⟩,
                 log := ((List.range (Word.mul rows cols)).filterMap fun k =>
                   (entryAt op a b rows k).2).foldl WarningLog.record s.log }) := by
  rw [exec_bind, exec_warned, Warned.foldlM_run (fun k l => Kernel.calc_run _ _ _ _ l)
    (fun acc _ v => acc.push v)]
  simp only [List.foldl_push_eq_append, exec_put, Array.mkEmpty_eq, Array.empty_append, entryAt]

/-- Two real matrices element by element: when it succeeds, the entry at each column-major
offset of the broadcast shape is the kernel on the broadcast entries, without the zero-times-NA
rule, and the log records the entries' warnings in order. -/
theorem elementwise_exec_real (ha : a.isComplex = false) (hb : b.isComplex = false) {op : BinaryOp}
    {dot : Bool} {s s' : Scratch} (h : exec (elementwise op a b dot) s = (.ok (), s')) :
    ∃ rows cols, broadcastShape op a.shape b.shape dot = .ok (rows, cols) ∧
      s' = { cell := .matrix ⟨rows, cols, .real ((List.range (Word.mul rows cols)).map fun k =>
                (entryAt op.elementwise a b rows k).1).toArray, none⟩,
             log := ((List.range (Word.mul rows cols)).filterMap fun k =>
                (entryAt op.elementwise a b rows k).2).foldl WarningLog.record s.log } := by
  unfold elementwise at h
  simp only [exec_bind, exec_lift] at h
  cases hs : broadcastShape op a.shape b.shape dot with
  | error e =>
    rw [hs] at h
    cases h
  | ok rc =>
    obtain ⟨rows, cols⟩ := rc
    rw [hs] at h
    simp only [ha, hb, Bool.or_false, Bool.false_eq_true, ↓reduceIte] at h
    refine ⟨rows, cols, rfl, ?_⟩
    split at h
    · -- an overflowing shape is checked first, leaving the scratch as it was
      rw [exec_bind, stopOverflowing_state ha hb] at h
      split at h
      · rw [realWalk_exec] at h
        exact (Prod.mk.inj h).2.symm
      · cases h
    · rw [realWalk_exec] at h
      exact (Prod.mk.inj h).2.symm

/-- The operators that `MatrixOps.apply` runs element by element on two matrices: the dotted
ones, `+ - % && ||`, `*` with a 1×1 side, `/` by a 1×1 matrix and `^` of a 1×1 base. -/
def elementwiseRoute (op : BinaryOp) (a b : Matrix) : Bool :=
  op.isDot || match op with
    | .add | .sub | .mod | .and | .or => true
    | .mul => a.isScalar || b.isScalar
    | .div => b.isScalar
    | .pow => a.isScalar
    | _ => false

/-- On its elementwise route the matrix family is the elementwise walk, dotted or not as the
operator is. -/
theorem apply_of_route {env : OpEnv} {op : BinaryOp} {x y : Operand}
    (hx : asMatrix? x env.ds = .ok (some a)) (hy : asMatrix? y env.ds = .ok (some b))
    (hr : elementwiseRoute op a b = true) (s : Scratch) :
    exec (MatrixOps.apply env op x y) s = exec (elementwise op a b op.isDot) s := by
  simp only [MatrixOps.apply, exec_bind, exec_liftFault, hx, hy, Except.mapError]
  cases op <;> simp_all [elementwiseRoute, BinaryOp.isDot]

end MatrixOps

namespace Binary

/-- Operands that `Binary.apply` combines over the observations: a series against a series or a
number, or against a matrix that is 1×1 or a column. -/
def SeriesPair : Value → Value → Bool
  | .series _, .series _ | .series _, .scalar _ | .scalar _, .series _ => true
  | .series _, .matrix m | .matrix m, .series _ => m.isScalar || m.cols == 1
  | _, _ => false

/-- Two numbers under a numeric operator other than a dotted one go to the kernel. -/
theorem apply_of_scalars {env : OpEnv} {op : BinaryOp} {a b : Operand} {x y : Float}
    (ha : a.value = .scalar x) (hb : b.value = .scalar y) (hn : op.isNumeric = true)
    (hd : op.isDot = false) : Binary.apply env op a b = Numeric.scalar env op x y := by
  unfold Binary.apply
  simp only [ha, hb, hd, hn, Bool.false_eq_true, ↓reduceIte]

/-- A numeric operator other than a dotted one sends a series pair to the series family. -/
theorem apply_of_seriesPair {env : OpEnv} {op : BinaryOp} {a b : Operand}
    (h : SeriesPair a.value b.value = true) (hn : op.isNumeric = true) (hd : op.isDot = false) :
    Binary.apply env op a b = Numeric.series env op a b := by
  unfold Binary.apply
  cases ha : a.value <;> cases hb : b.value <;>
    simp only [ha, hb, SeriesPair, Bool.false_eq_true] at h ⊢ <;>
    simp only [hd, hn, h, Bool.false_eq_true, Bool.true_and, ↓reduceIte]

/-- Real matrices, or a real matrix and a number, go to the matrix family. -/
theorem apply_of_realMatrix {env : OpEnv} {op : BinaryOp} {a b : Operand} {ma mb : Matrix}
    (ha : a.value.realMatrix? = some ma) (hb : b.value.realMatrix? = some mb)
    (hm : a.value.kind = .matrix ∨ b.value.kind = .matrix) :
    Binary.apply env op a b = MatrixOps.apply env op a b := by
  unfold Binary.apply
  cases hva : a.value <;> cases hvb : b.value <;>
    simp only [hva, hvb, Value.realMatrix?, Value.kind, reduceCtorEq, or_self, ite_self] at ha hb hm ⊢

end Binary

open Scratch

/-- **The numeric operators apply the kernel element by element.** Under a numeric operator,
two numbers give the kernel's value with the statement's zero-times-NA rule (`OpEnv.absorb`: on
unless the statement produces a matrix). A series against a series, a number or a column gives,
at each observation of the sample, the kernel on the aligned elements under the same rule, and
NA outside the sample. Two real matrices, or a real matrix and a number, on the elementwise route
give, at each offset of the broadcast shape, the kernel on the broadcast entries without the
rule. The log records each element's warning in order, and the kernel with a missing operand
records none and gives NA, except `x * 0` under the rule, `||` with a known nonzero operand and
`&&` with a known zero operand. -/
theorem numeric_elements_follow_kernel (env : OpEnv) (op : BinaryOp) (a b : Operand) (s : Scratch) :
    (∀ x y, a.value = .scalar x → b.value = .scalar y → op.isNumeric = true → op.isDot = false →
      exec (Binary.apply env op a b) s =
        (.ok (), { cell := .scalar (Kernel.apply op env.absorb x y).1,
                   log := (Kernel.apply op env.absorb x y).2.elim s.log s.log.record })) ∧
    (Binary.SeriesPair a.value b.value = true → op.isNumeric = true → op.isDot = false →
      ∀ ca cb, Column.of? a env.ds = some ca → Column.of? b env.ds = some cb →
        ∃ xs, exec (Binary.apply env op a b) s =
            (.ok (), { cell := .series xs,
                       log := (env.ds.sampleRange.filterMap fun t =>
                         (Kernel.apply op env.absorb (ca.at t) (cb.at t)).2).foldl WarningLog.record s.log }) ∧
          ∀ t, xs[t]? = if t < env.ds.nobs then
            some (if t ∈ env.ds.sampleRange then (Kernel.apply op env.absorb (ca.at t) (cb.at t)).1 else NA)
            else none) ∧
    (∀ ma mb s', a.value.realMatrix? = some ma → b.value.realMatrix? = some mb →
      (a.value.kind = .matrix ∨ b.value.kind = .matrix) → MatrixOps.elementwiseRoute op ma mb = true →
      exec (Binary.apply env op a b) s = (.ok (), s') →
      ∃ rows cols, MatrixOps.broadcastShape op ma.shape mb.shape op.isDot = .ok (rows, cols) ∧
        s' = { cell := .matrix ⟨rows, cols, .real ((List.range (Word.mul rows cols)).map fun k =>
                  (MatrixOps.entryAt op.elementwise ma mb rows k).1).toArray, none⟩,
               log := ((List.range (Word.mul rows cols)).filterMap fun k =>
                  (MatrixOps.entryAt op.elementwise ma mb rows k).2).foldl WarningLog.record s.log }) ∧
    (∀ absorb x y, (x.isNaN || y.isNaN) = true →
      (Kernel.apply op absorb x y).2 = none ∧
      ((Kernel.apply op absorb x y).1 = NA ∨
        op.elementwise = .mul ∧ (absorb && (x == 0 || y == 0)) = true ∧ (Kernel.apply op absorb x y).1 = 0 ∨
        op.elementwise = .or ∧ (truth? x = some true ∨ truth? y = some true) ∧
          (Kernel.apply op absorb x y).1 = 1 ∨
        op.elementwise = .and ∧ (truth? x = some false ∨ truth? y = some false) ∧
          (Kernel.apply op absorb x y).1 = 0)) := by
  refine ⟨fun x y ha hb hn hd => ?_, fun hp hn hd ca cb hca hcb => ?_,
    fun ma mb s' ha hb hm hr h => ?_, fun absorb x y hna => ⟨Kernel.apply_warning_of_na hna, Kernel.apply_of_na hna⟩⟩
  · rw [Binary.apply_of_scalars ha hb hn hd, Numeric.scalar_exec]
  · rw [Binary.apply_of_seriesPair hp hn hd, Numeric.series_exec env op hca hcb]
    exact ⟨_, rfl, getElem?_fillSeriesPure env.ds _⟩
  · rw [Binary.apply_of_realMatrix ha hb hm,
      MatrixOps.apply_of_route (asMatrix?_of_realMatrix? ha env.ds) (asMatrix?_of_realMatrix? hb env.ds) hr] at h
    exact MatrixOps.elementwise_exec_real (Value.isComplex_of_realMatrix? ha)
      (Value.isComplex_of_realMatrix? hb) h

/-- Two observations, both in the sample, under a statement with no declared type. -/
def twoObsEnv : OpEnv := { ds := Dataset.create 2, target := .any }

/-- The 1×1 real matrix 2. -/
def twoMatrix : Matrix := ⟨1, 1, .real #[2], none⟩

/-- The three elementwise paths at fixed operands: NA * 0 on numbers, `x * 0` with `x` = NA, 2
on a series, and `M + M` on the 1×1 matrix 2; each element is the kernel's. -/
theorem numeric_paths_follow_kernel :
    exec (Binary.apply twoObsEnv .mul { value := .scalar NA } { value := .scalar 0 }) default =
        (.ok (), { cell := .scalar (Kernel.apply .mul twoObsEnv.absorb NA 0).1,
                   log := (Kernel.apply .mul twoObsEnv.absorb NA 0).2.elim (default : Scratch).log
                     (default : Scratch).log.record }) ∧
    (∃ xs, (exec (Binary.apply twoObsEnv .mul { value := .series #[NA, 2] } { value := .scalar 0 })
        default).2.cell = .series xs ∧
      ∀ t, xs[t]? = if t < 2 then
        some (if t ∈ twoObsEnv.ds.sampleRange then (Kernel.apply .mul true (#[NA, 2].getD t NA) 0).1 else NA)
        else none) ∧
    ∃ rows cols, MatrixOps.broadcastShape .add twoMatrix.shape twoMatrix.shape false = .ok (rows, cols) ∧
      (exec (Binary.apply twoObsEnv .add { value := .matrix twoMatrix } { value := .matrix twoMatrix })
          default).2 =
        { cell := .matrix ⟨rows, cols, .real ((List.range (Word.mul rows cols)).map fun k =>
              (MatrixOps.entryAt BinaryOp.add.elementwise twoMatrix twoMatrix rows k).1).toArray, none⟩,
          log := ((List.range (Word.mul rows cols)).filterMap fun k =>
              (MatrixOps.entryAt BinaryOp.add.elementwise twoMatrix twoMatrix rows k).2).foldl
            WarningLog.record (default : Scratch).log } := by
  have hkernel := numeric_elements_follow_kernel twoObsEnv .mul { value := .scalar NA }
    { value := .scalar 0 } default
  obtain ⟨xs, hrun, hxs⟩ := (numeric_elements_follow_kernel twoObsEnv .mul { value := .series #[NA, 2] }
    { value := .scalar 0 } default).2.1 rfl rfl rfl _ _ rfl rfl
  -- `M + M` succeeds, so its run is its scratch
  have hmat : exec (Binary.apply twoObsEnv .add { value := .matrix twoMatrix }
      { value := .matrix twoMatrix }) default =
      (.ok (), (exec (Binary.apply twoObsEnv .add { value := .matrix twoMatrix }
        { value := .matrix twoMatrix }) default).2) := by
    have hok : (exec (Binary.apply twoObsEnv .add { value := .matrix twoMatrix }
        { value := .matrix twoMatrix }) default).1.toBool = true := by decide +kernel
    generalize exec (Binary.apply twoObsEnv .add { value := .matrix twoMatrix }
      { value := .matrix twoMatrix }) default = p at hok ⊢
    obtain ⟨r, s'⟩ := p
    cases r with
    | error e => cases hok
    | ok u => rfl
  exact ⟨hkernel.1 NA 0 rfl rfl rfl rfl, ⟨xs, by rw [hrun], hxs⟩,
    (numeric_elements_follow_kernel twoObsEnv .add { value := .matrix twoMatrix }
      { value := .matrix twoMatrix } default).2.2.1 twoMatrix twoMatrix _ rfl rfl (.inl rfl)
      (by decide) hmat⟩

/-- A column holding 1 and NA. -/
def oneNAColumn : Matrix := ⟨2, 1, .real #[1, NA], none⟩

/-- Comparing two matrices with plain `==` gives one number, 0 here since NA equals nothing,
where comparing element by element would give 1 and NA. -/
theorem matrices_compare_to_one_number :
    (exec (Binary.apply default .eq { value := .matrix oneNAColumn } { value := .matrix oneNAColumn })
        default).2.cell.scalar?.map (· == 0) = some true ∧
      (Kernel.apply .eq false 1 1).1 == 1 ∧ (Kernel.apply .eq false NA NA).1.isNaN = true := by
  decide +kernel

end SeriesCalc
