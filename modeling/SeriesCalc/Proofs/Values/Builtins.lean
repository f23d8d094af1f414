import SeriesCalc.Eval.Library
import SeriesCalc.Proofs.Values.Operators

/-!
# Builtins keep their cell

A builtin body writes its result into the cell with `Library.put`; one that cannot allocate
writes an empty matrix before it refuses. Every value written is accepted by a check that
evaluation keeps (`Value.Invariant`) once the arguments are: numbers, texts and series always,
matrices built fresh at their shape, and matrices made from an argument's matrix whenever that
one is sound. `mshape` keeps the stored entries of its argument and checks that their word
count is the new shape's.
-/

namespace SeriesCalc

/-- Mapping an array in a state monad keeps its size. -/
theorem size_mapM_run {σ α β : Type} (f : α → StateM σ β) (xs : Array α) (s : σ) :
    ((xs.mapM f).run s).1.size = xs.size := by
  rw [Array.mapM_eq_foldlM_push, ← Array.foldlM_toList,
    size_foldlM_push _ (fun acc b s => by exact Array.size_push _)]
  simp

/-- A new shape for a sound matrix's entries, when its word product is the old one. -/
theorem Matrix.Sound.reshape {m : Matrix} (h : m.Sound) {rows cols : Nat}
    (hs : Word.mul rows cols = m.size) : ({ m with rows, cols, span := none } : Matrix).Sound := by
  unfold Sound at h ⊢
  rw [h]
  exact hs.symm

namespace Library

open Scratch

variable {c : Value → Bool} {α : Type}

theorem put_keeps {v : Value} (hv : v.throughout c = true) : Keeps c (put v) := Keeps.write hv

theorem refuse_keeps (r : Refusal) : Keeps c (refuse r : BodyM α) := Keeps.throw _

theorem warned_keeps (w : Warned α) : Keeps c (warned w) := Keeps.of_cell fun _ => rfl

theorem warned_yields {w : Warned α} {R : α → Prop} (h : ∀ log, R (w.run log).1) :
    Yields R (warned w) := fun s a ha => by
  cases ha
  exact h s.log

theorem stored_keeps (r : Except Fault α) : Keeps c (stored r) := by
  cases r with
  | ok a => exact Keeps.pure a
  | error f => exact refuse_keeps _

theorem dim_keeps (o : Operand) : Keeps c (dim o) := by
  unfold dim
  split
  · exact Keeps.ite (Keeps.pure _) (refuse_keeps _)
  · exact refuse_keeps _

/-- The argument at a position, or the null value past the end. -/
theorem arg_throughout {args : List Operand} (hargs : ∀ o ∈ args, o.value.throughout c = true)
    (hnull : Value.null.throughout c = true) (i : Nat) :
    (args.getD i default).value.throughout c = true := by
  rw [List.getD_eq_getElem?_getD]
  cases h : args[i]? with
  | none => exact hnull
  | some o => exact hargs o (List.mem_of_getElem? h)

theorem matrixArg_keeps (o : Operand) : Keeps c (matrixArg o) := by
  unfold matrixArg
  split
  · exact Keeps.pure _
  · exact Keeps.pure _
  · exact refuse_keeps _

theorem reduceInput_keeps (env : OpEnv) (o : Operand) : Keeps c (reduceInput env o) := by
  unfold reduceInput
  split
  · exact Keeps.pure _
  · exact (stored_keeps _).bind' fun _ => Keeps.pure _
  · split
    · exact Keeps.pure _
    · exact refuse_keeps _
  · exact refuse_keeps _

theorem square_keeps (m : Matrix) : Keeps c (square m) := Keeps.ite (Keeps.pure _) (refuse_keeps _)

variable (hc : Value.Invariant c)

include hc

/-- The matrix view of an accepted argument is accepted. -/
theorem matrixArg_yields {o : Operand} (ho : o.value.throughout c = true) :
    Yields (fun m => (Value.matrix m).throughout c = true) (matrixArg o) := by
  unfold matrixArg
  split
  · rename_i hm
    rw [hm] at ho
    exact Yields.pure ho
  · exact Yields.pure (hc.matrix_throughout (Matrix.sound_ofScalar _))
  · exact Yields.throw _

/-- An allocation leaves an accepted cell, and gives a fresh matrix of its shape. -/
theorem allocate_keeps (rows cols : Nat) (fill : Float) : Keeps c (allocate rows cols fill) := by
  unfold allocate
  split
  · exact (put_keeps (hc.matrix_throughout Matrix.sound_empty)).bind' fun _ => refuse_keeps _
  · exact Keeps.pure _

omit hc in
theorem allocate_yields (rows cols : Nat) (fill : Float) :
    Yields Matrix.Sound (allocate rows cols fill) := by
  unfold allocate
  split
  · exact (Yields.trivial _).bind fun _ _ => Yields.throw _
  · exact Yields.pure (Matrix.sound_filled _ _ _)

theorem filled_keeps (args : List Operand) (x : Float) : Keeps c (filled args x) := by
  unfold filled
  refine (dim_keeps _).bind' fun r => ?_
  have rest : ∀ k, Keeps c (do put (.matrix (← allocate r k x))) := fun _ =>
    (allocate_keeps hc _ _ _).bind (allocate_yields _ _ _) fun m hm => put_keeps (hc.matrix_throughout hm)
  -- the column count is read, or one; the allocation follows either way
  dsimp only
  split
  · exact (dim_keeps _).bind' rest
  · exact (Keeps.pure _).bind' rest

theorem identity_keeps (args : List Operand) : Keeps c (identity args) := by
  unfold identity
  refine (dim_keeps _).bind' fun n => (allocate_keeps hc _ _ _).bind (allocate_yields _ _ _) fun m hm => ?_
  -- setting the diagonal keeps the allocated layout
  have hl := Matrix.SameLayout.foldl (fun m i => Matrix.sameLayout_set m i i 1) (List.range n) m
  exact put_keeps (hc.matrix_throughout (hm.of_layout hl))

theorem seq_keeps (args : List Operand) : Keeps c (seq args) := by
  unfold seq
  split
  · refine Keeps.ite (refuse_keeps _) ?_
    exact (allocate_keeps hc _ _ _).bind' fun _ => put_keeps (hc.matrix_throughout (Matrix.sound_row _))
  · exact refuse_keeps _

/-- `mshape` writes the entries of its argument under the new shape only when their word
count is the new shape's, so the result is sound whenever the argument is. -/
theorem mshape_keeps {args : List Operand} (h0 : (args.getD 0 default).value.throughout c = true) :
    Keeps c (mshape args) := by
  unfold mshape
  split
  · rename_i src hsrc
    rw [hsrc] at h0
    refine (dim_keeps _).bind' fun r => (dim_keeps _).bind' fun k => ?_
    split
    · exact refuse_keeps _
    · rename_i hs
      have hs : Word.mul r k = src.size := by simpa using hs
      exact put_keeps (hc.matrix_of_one h0 fun h => h.reshape hs)
  · exact refuse_keeps _

theorem complex_keeps (args : List Operand) : Keeps c (complex args) := by
  unfold complex
  refine (matrixArg_keeps _).bind' fun re => (matrixArg_keeps _).bind' fun im => ?_
  dsimp only
  refine Keeps.ite (refuse_keeps _) (put_keeps (hc.matrix_throughout (Matrix.sound_of_size ?_)))
  simp [Entries.size, Matrix.size]

theorem rowsOf_keeps (env : OpEnv) (o : Operand) : Keeps c (rowsOf env o) := by
  unfold rowsOf
  split
  · exact put_keeps (hc.scalar_throughout _)
  · exact put_keeps (hc.scalar_throughout _)
  · exact put_keeps (hc.scalar_throughout _)
  · exact refuse_keeps _

theorem colsOf_keeps (o : Operand) : Keeps c (colsOf o) := by
  unfold colsOf
  split
  · exact put_keeps (hc.scalar_throughout _)
  · exact put_keeps (hc.scalar_throughout _)
  · exact put_keeps (hc.scalar_throughout _)
  · exact refuse_keeps _

/-- Elementwise math writes a number, a series, or a real matrix of its argument's layout. -/
theorem map_keeps (env : OpEnv) {o : Operand} (ho : o.value.throughout c = true)
    (f : Float → Warned Float) : Keeps c (map env o f) := by
  unfold map
  split
  · exact (warned_keeps _).bind' fun _ => put_keeps (hc.scalar_throughout _)
  · exact (stored_keeps _).bind' fun _ => (warned_keeps _).bind' fun _ =>
      put_keeps (hc.series_throughout _)
  · rename_i m hm
    rw [hm] at ho
    split
    · rename_i xs hxs
      refine (warned_keeps _).bind (warned_yields (R := fun ys => ys.size = xs.size)
        fun log => size_mapM_run f xs log) fun ys hys => ?_
      refine put_keeps (hc.matrix_of_one ho fun h => ?_)
      unfold Matrix.Sound at h ⊢
      simpa [Entries.size, hxs, hys, Matrix.size] using h
    · exact refuse_keeps _
  · exact refuse_keeps _

/-- Every builtin body keeps its cell when its arguments are accepted. -/
theorem body_keeps (env : OpEnv) (b : Builtin) {args : List Operand}
    (hargs : ∀ o ∈ args, o.value.throughout c = true) : Keeps c (body env b args) := by
  have h0 := arg_throughout hargs hc.null_throughout 0
  have scalar : ∀ x, Keeps c (put (.scalar x)) := fun _ => put_keeps (hc.scalar_throughout _)
  have reduce : ∀ f : List Float → Float, Keeps c (do put (.scalar (f (← reduceInput env (args.getD 0 default))))) :=
    fun _ => (reduceInput_keeps _ _).bind' fun _ => scalar _
  -- a matrix argument then a matrix written from it
  have fromArg : ∀ g : Matrix → Matrix, (∀ m, (Value.matrix m).throughout c = true →
      (Value.matrix (g m)).throughout c = true) →
      Keeps c (do put (.matrix (g (← matrixArg (args.getD 0 default))))) :=
    fun g hg => (matrixArg_keeps _).bind (matrixArg_yields hc h0) fun m hm => put_keeps (hg m hm)
  unfold body
  cases b with
  | ones => exact filled_keeps hc _ _
  | zeros => exact filled_keeps hc _ _
  | identity => exact identity_keeps hc _
  | seq => exact seq_keeps hc _
  | mshape => exact mshape_keeps hc h0
  | complex => exact complex_keeps hc _
  | rows => exact rowsOf_keeps hc _ _
  | cols => exact colsOf_keeps hc _
  | nelem => exact scalar _
  | strlen => exact scalar _
  | inbundle =>
    dsimp only
    split
    · exact scalar _
    · exact refuse_keeps _
  | typestr => exact put_keeps (hc.str_throughout _)
  | sqrt => exact map_keeps hc _ h0 _
  | exp => exact map_keeps hc _ h0 _
  | log => exact map_keeps hc _ h0 _
  | abs => exact map_keeps hc _ h0 _
  | missing => exact map_keeps hc _ h0 _
  | ok => exact map_keeps hc _ h0 _
  | sum => exact reduce _
  | mean => exact reduce _
  | min => exact reduce _
  | max => exact reduce _
  | transp =>
    refine (matrixArg_keeps _).bind' fun m => (stored_keeps _).bind' fun _ => ?_
    exact put_keeps (hc.matrix_throughout (Matrix.sound_transpose _))
  | inv =>
    refine (matrixArg_keeps _).bind' fun m => (square_keeps _).bind' fun _ => ?_
    split
    · rename_i r hr
      exact put_keeps (hc.matrix_throughout (Linalg.inverse_sound hr))
    · exact refuse_keeps _
  | det =>
    refine (matrixArg_keeps _).bind' fun m => (square_keeps _).bind' fun _ => ?_
    split
    · exact scalar _
    · exact refuse_keeps _
  | real => exact fromArg _ fun _ _ => hc.matrix_throughout (Matrix.sound_realPart _)
  | imag => exact fromArg _ fun _ hm => hc.matrix_of_one hm fun h => h.imagPart

end Library

namespace Builtin

open Scratch

variable {c : Value → Bool}

/-- Running a body inside an operator, its refusal kept as a result, leaves the cell the body
leaves. -/
theorem keeps_lift_run {ε ε' α : Type} {x : ExceptT ε (StateM Scratch) α} (hx : Keeps c x) :
    Keeps c (ExceptT.lift x.run : ExceptT ε' (StateM Scratch) (Except ε α)) :=
  fun s hs => hx s hs

/-- A builtin call keeps its cell when its arguments are accepted. -/
theorem call_keeps (hc : Value.Invariant c) (env : OpEnv) (b : Builtin) {args : List Operand}
    (hargs : ∀ o ∈ args, o.value.throughout c = true) : Keeps c (b.call env args) := by
  unfold Builtin.call
  refine (OpM.lift_keeps _).bind' fun _ =>
    (keeps_lift_run (Library.body_keeps hc env b hargs)).bind' fun r => ?_
  split
  · exact Keeps.pure _
  · exact Keeps.throw _

end Builtin

end SeriesCalc
