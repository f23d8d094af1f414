import Mathlib
import SeriesCalc.Proofs.Values.Blocks

/-!
# Joining matrices into blocks

`Linalg.hcat` puts two matrices side by side and `Linalg.vcat` stacks them. An empty operand
contributes nothing: the other one is the result as it is. Two non-empty operands that agree on
the joined dimension give a matrix of zeros of the joint shape, complex when either operand is,
into which every entry of both is written. Below `2^64` entries, each entry of the result is
then the entry of the operand whose block covers it.

* `Matrix.Holds m z`: `m` stores `z` as it is (it is complex, or `z` has no imaginary part);
  a run of writes at distinct positions of values it holds writes exactly those entries
  (`Matrix.foldl_setAt_written`).
* `hcat_blocks`, `vcat_blocks`: the block entries, the joint shape and the kind of the result;
  `hcat_of_rows_ne`, `vcat_of_cols_ne`: the failure on operands that do not fit together;
  `hcat_of_isEmpty_left` and its siblings: an empty operand is skipped.
-/

namespace SeriesCalc

namespace Word

/-- A column-major offset below `2^64` is the plain one. -/
theorem add_mul_of_lt {c r i : Nat} (h : c * r + i < modulus) : add (mul c r) i = c * r + i := by
  have hcr : c * r < modulus := lt_of_le_of_lt (Nat.le_add_right _ _) h
  unfold add mul
  rw [wrap_of_lt hcr, wrap_of_lt h]

end Word

/-- An entry inside a `rows × cols` shape sits below `rows · cols` in column-major order. -/
theorem colMajor_lt {i c rows cols : Nat} (hi : i < rows) (hc : c < cols) :
    c * rows + i < cols * rows :=
  calc c * rows + i < c * rows + rows := by omega
    _ = (c + 1) * rows := (Nat.succ_mul c rows).symm
    _ ≤ cols * rows := Nat.mul_le_mul_right _ hc

namespace Matrix

/-- A matrix whose shape has fewer than `2^64` entries counts them exactly. -/
theorem size_of_lt {m : Matrix} (h : m.rows * m.cols < Word.modulus) : m.size = m.rows * m.cols :=
  Word.wrap_of_lt h

/-- A matrix with entries has rows and columns; below `2^64` entries, conversely. -/
theorem isEmpty_eq_false_iff {m : Matrix} (h : m.rows * m.cols < Word.modulus) :
    m.isEmpty = false ↔ 0 < m.rows ∧ 0 < m.cols := by
  rw [isEmpty, size_of_lt h, beq_eq_false_iff_ne, ne_eq, Nat.mul_eq_zero]
  omega

theorem rows_pos_of_isEmpty {m : Matrix} (h : m.isEmpty = false) : 0 < m.rows ∧ 0 < m.cols := by
  simp only [isEmpty, size, Word.mul, Word.wrap, beq_eq_false_iff_ne, ne_eq] at h
  refine ⟨Nat.pos_of_ne_zero fun hr => h ?_, Nat.pos_of_ne_zero fun hc => h ?_⟩
  · simp [hr]
  · simp [hc]

/-- Below `2^64` entries, the offset of `(i, c)` is `c · rows + i`. -/
theorem offset_of_lt {m : Matrix} {i c : Nat} (h : c * m.rows + i < Word.modulus) :
    m.offset i c = c * m.rows + i :=
  Word.add_mul_of_lt h

theorem offset_setAt (m : Matrix) (k : Nat) (z : Complex) : (m.setAt k z).offset = m.offset := by
  funext i c
  simp only [offset, (sameLayout_setAt m k z).rows]

@[simp] theorem isEmpty_empty : empty.isEmpty = true := rfl

@[simp] theorem zeros_rows (r c : Nat) : (zeros r c).rows = r := rfl

@[simp] theorem zeros_cols (r c : Nat) : (zeros r c).cols = c := rfl

@[simp] theorem zeros_isComplex (r c : Nat) : (zeros r c).isComplex = false := rfl

@[simp] theorem zeros_size (r c : Nat) : (zeros r c).entries.size = Word.mul r c := by
  simp [zeros, filled, Entries.size]

@[simp] theorem promote_isComplex (m : Matrix) : m.promote.isComplex = true := by
  unfold promote
  split <;> rename_i h <;> simp [isComplex, h]

/-- The zeros a join writes into: complex when `complex` is. -/
theorem isComplex_promoteIf (m : Matrix) (complex : Bool) (hm : m.isComplex = false) :
    (if complex = true then m.promote else m).isComplex = complex := by
  cases complex <;> simp [hm]

theorem layout_promoteIf (m : Matrix) (complex : Bool) :
    SameLayout m (if complex = true then m.promote else m) := by
  cases complex
  · exact .refl m
  · exact sameLayout_promote m

/-- A real matrix reads every entry without imaginary part. -/
theorem elemComplex_im_of_real {m : Matrix} (h : m.isComplex = false) (k : Nat) :
    (m.elemComplex k).im = 0 := by
  unfold elemComplex
  split
  · rfl
  · rename_i zs he
    simp [isComplex, he] at h

/-! ## Writes that store their value as it is -/

/-- `m` stores `z` as it is: `m` is complex, or `z` has no imaginary part. -/
def Holds (m : Matrix) (z : Complex) : Prop := m.isComplex = true ∨ z.im = 0

theorem Holds.of_real {m : Matrix} {z : Complex} (h : z.im = 0) : m.Holds z := .inr h

theorem Holds.of_complex {m : Matrix} {z : Complex} (h : m.isComplex = true) : m.Holds z := .inl h

/-- An entry without imaginary part does not promote a matrix. -/
theorem im_bne_zero {z : Complex} (h : z.im = 0) : (z.im != 0) = false := by
  rw [h]
  decide

/-- A write of a value the matrix holds keeps it as real or complex as it was. -/
theorem isComplex_setAt {m : Matrix} {z : Complex} (k : Nat) (h : m.Holds z) :
    (m.setAt k z).isComplex = m.isComplex := by
  obtain ⟨r, c, e, sp⟩ := m
  cases e with
  | real xs =>
    have him : z.im = 0 := h.resolve_left (by simp [isComplex])
    simp [setAt, im_bne_zero him, isComplex]
  | complex zs => cases hz : (z.im != 0) <;> simp [setAt, hz, promote, isComplex]

/-- A write of a value the matrix holds reads back as that value. -/
theorem elemComplex_setAt_of_holds {m : Matrix} {k : Nat} {z : Complex} (hk : k < m.entries.size)
    (h : m.Holds z) : (m.setAt k z).elemComplex k = z := by
  obtain ⟨r, c, e, sp⟩ := m
  cases e with
  | real xs =>
    have him : z.im = 0 := h.resolve_left (by simp [isComplex])
    obtain ⟨re, im⟩ := z
    simp only at him
    subst him
    simp only [Entries.size] at hk
    simp [setAt, im_bne_zero (rfl : ({ re := re, im := 0 } : Complex).im = 0), elemComplex,
      Complex.ofReal, Array.getD_eq_getD_getElem?, hk]
  | complex zs =>
    simp only [Entries.size] at hk
    cases hz : (z.im != 0) <;> simp [setAt, hz, promote, elemComplex, Array.getD_eq_getD_getElem?, hk]

/-- `m'` is `m` with the positions of `ps` written: the same layout and kind, each written
position holding its value, every other stored entry as it was. -/
structure Written {α : Type} (m : Matrix) (pos : α → Nat) (val : α → Complex) (ps : List α)
    (m' : Matrix) : Prop where
  layout : SameLayout m m'
  complex : m'.isComplex = m.isComplex
  frame : ∀ j < m.entries.size, j ∉ ps.map pos → m'.elemComplex j = m.elemComplex j
  written : ∀ p ∈ ps, m'.elemComplex (pos p) = val p

/-- **Writes at distinct stored positions of values the matrix holds write exactly those
entries.** By induction over the writes: the first one holds through the rest, which never
touch its position. -/
theorem foldl_setAt_written {α : Type} (pos : α → Nat) (val : α → Complex) :
    ∀ (ps : List α) (m : Matrix), (ps.map pos).Nodup → (∀ p ∈ ps, pos p < m.entries.size) →
      (∀ p ∈ ps, m.Holds (val p)) →
      Written m pos val ps (ps.foldl (fun m p => m.setAt (pos p) (val p)) m)
  | [], m, _, _, _ => ⟨.refl m, rfl, fun _ _ _ => rfl, fun _ h => absurd h List.not_mem_nil⟩
  | p :: ps, m, hnd, hin, hholds => by
    rw [List.map_cons, List.nodup_cons] at hnd
    obtain ⟨hp, hnd⟩ := hnd
    have hpin := hin p List.mem_cons_self
    have hlayout := sameLayout_setAt m (pos p) (val p)
    have hkind := isComplex_setAt (pos p) (hholds p List.mem_cons_self)
    -- the rest writes into the matrix after the first write, which holds the same values
    have hrest := foldl_setAt_written pos val ps (m.setAt (pos p) (val p)) hnd
      (fun q hq => hlayout.size ▸ hin q (List.mem_cons_of_mem _ hq))
      (fun q hq => by
        rcases hholds q (List.mem_cons_of_mem _ hq) with h | h
        · exact .inl (hkind.trans h)
        · exact .inr h)
    rw [List.foldl_cons]
    refine ⟨hlayout.trans hrest.layout, hrest.complex.trans hkind, fun j hj hjn => ?_, fun q hq => ?_⟩
    · rw [List.map_cons, List.mem_cons, not_or] at hjn
      rw [hrest.frame j (hlayout.size ▸ hj) hjn.2, elemComplex_setAt_ne _ hjn.1 hj]
    · rcases List.mem_cons.mp hq with rfl | hq
      · rw [hrest.frame _ (hlayout.size ▸ hpin) hp]
        exact elemComplex_setAt_of_holds hpin (hholds q List.mem_cons_self)
      · exact hrest.written q hq

/-- Writes by row and column land at the offsets of the matrix they start from. -/
theorem foldl_setComplex_eq (pos : Nat × Nat × Complex → Nat) :
    ∀ (ps : List (Nat × Nat × Complex)) (m : Matrix), (∀ p ∈ ps, m.offset p.1 p.2.1 = pos p) →
      ps.foldl (fun o p => o.setComplex p.1 p.2.1 p.2.2) m =
        ps.foldl (fun o p => o.setAt (pos p) p.2.2) m
  | [], _, _ => rfl
  | p :: ps, m, h => by
    rw [List.foldl_cons, List.foldl_cons]
    have hp : m.setComplex p.1 p.2.1 p.2.2 = m.setAt (pos p) p.2.2 := by
      rw [setComplex, h p List.mem_cons_self]
    rw [hp]
    refine foldl_setComplex_eq pos ps _ fun q hq => ?_
    rw [offset_setAt]
    exact h q (List.mem_cons_of_mem _ hq)

/-- An operand's entries are held by a join that is complex whenever the operand is. -/
theorem holds_of_join {m out : Matrix} (h : m.isComplex = true → out.isComplex = true) (k : Nat) :
    out.Holds (m.elemComplex k) := by
  cases hm : m.isComplex
  · exact .of_real (elemComplex_im_of_real hm k)
  · exact .of_complex (h hm)

end Matrix

namespace Linalg

open SeriesCalc.Matrix

/-! ## Side by side -/

theorem hcat_of_isEmpty_left {a : Matrix} (b : Matrix) (ha : a.isEmpty = true) : hcat a b = .ok b := by
  simp [hcat, ha]

theorem hcat_of_isEmpty_right {a b : Matrix} (ha : a.isEmpty = false) (hb : b.isEmpty = true) :
    hcat a b = .ok a := by
  simp [hcat, ha, hb]

/-- Non-empty operands of different heights do not go side by side. -/
theorem hcat_of_rows_ne {a b : Matrix} (ha : a.isEmpty = false) (hb : b.isEmpty = false)
    (h : a.rows ≠ b.rows) :
    hcat a b = .error (Fault.nonConformable "~" a.shape b.shape : EvalError) := by
  simp [hcat, ha, hb, h]

/-- **Side by side.** Two non-empty operands of one height, joined below `2^64` entries, give
the matrix of that height and both widths, complex when either is, with the entries of `a` in
its first columns and those of `b` after them. -/
theorem hcat_blocks {a b : Matrix} (ha : a.isEmpty = false) (hb : b.isEmpty = false)
    (hrows : b.rows = a.rows) (hbound : a.rows * (a.cols + b.cols) < Word.modulus) :
    ∃ r, hcat a b = .ok r ∧ r.rows = a.rows ∧ r.cols = a.cols + b.cols ∧
      r.isComplex = (a.isComplex || b.isComplex) ∧
      (∀ i < a.rows, ∀ c < a.cols, r.getComplex i c = a.getComplex i c) ∧
      (∀ i < a.rows, ∀ c < b.cols, r.getComplex i (a.cols + c) = b.getComplex i c) := by
  obtain ⟨hra, -⟩ := rows_pos_of_isEmpty ha
  -- below `2^64` every count is the plain one
  have hsum : a.cols + b.cols < Word.modulus :=
    lt_of_le_of_lt (Nat.le_mul_of_pos_left _ hra) hbound
  have hadd : Word.add a.cols b.cols = a.cols + b.cols := Word.wrap_of_lt hsum
  have hsa : a.size = a.rows * a.cols :=
    size_of_lt (lt_of_le_of_lt (Nat.mul_le_mul_left _ (Nat.le_add_right _ _)) hbound)
  have hsb : b.size = a.rows * b.cols := by
    rw [size_of_lt (by rw [hrows]; exact lt_of_le_of_lt (Nat.mul_le_mul_left _ (Nat.le_add_left _ _)) hbound),
      hrows]
  have hlo : Word.mul a.rows (a.cols + b.cols) = a.size + b.size := by
    rw [Word.mul, Word.wrap_of_lt hbound, hsa, hsb, Nat.mul_add]
  have htotal : a.size + b.size < Word.modulus := hlo ▸ Word.mul_lt _ _
  -- the zeros of the joint shape, complex when an operand is
  set zs := zeros a.rows (a.cols + b.cols)
  set out := if (a.isComplex || b.isComplex) = true then zs.promote else zs with hout
  have hlayout : SameLayout zs out := layout_promoteIf zs _
  have hkind : out.isComplex = (a.isComplex || b.isComplex) := isComplex_promoteIf zs _ rfl
  have hsize : out.entries.size = a.size + b.size := by rw [hlayout.size, zeros_size, hlo]
  have hjoin : ∀ m : Matrix, (m = a ∨ m = b) → m.isComplex = true → out.isComplex = true := by
    rintro m (rfl | rfl) hm <;> simp [hkind, hm]
  -- the entries of `a` first, then those of `b` after them
  have h1 := foldl_setAt_written (fun k => k) a.elemComplex (List.range a.size) out
    (by simpa using List.nodup_range)
    (fun k hk => by rw [List.mem_range] at hk; omega)
    (fun k _ => holds_of_join (hjoin a (.inl rfl)) k)
  set out1 := (List.range a.size).foldl (fun m k => m.setAt k (a.elemComplex k)) out
  have h2 := foldl_setAt_written (a.size + ·) b.elemComplex (List.range b.size) out1
    (List.nodup_range.map (fun _ _ h => Nat.add_left_cancel h))
    (fun k hk => by rw [List.mem_range] at hk; rw [h1.layout.size]; omega)
    (fun k _ => holds_of_join (fun hm => h1.complex.trans (hjoin b (.inr rfl) hm)) k)
  set r := (List.range b.size).foldl (fun m k => m.setAt (a.size + k) (b.elemComplex k)) out1
  have hrrows : r.rows = a.rows := by rw [h2.layout.rows, h1.layout.rows, hlayout.rows]; rfl
  refine ⟨r, ?_, hrrows, ?_, ?_, fun i hi c hc => ?_, fun i hi c hc => ?_⟩
  · simp only [hcat, ha, hb, hrows, bne_self_eq_false, Bool.false_eq_true, ↓reduceIte, hadd,
      zeros_size, hlo, Nat.lt_irrefl]
    rfl
  · rw [h2.layout.cols, h1.layout.cols, hlayout.cols]
    rfl
  · rw [h2.complex, h1.complex, hkind]
  · -- an entry of `a` is written by the first run and left by the second
    have hk : c * a.rows + i < a.size := by rw [hsa, Nat.mul_comm a.rows]; exact colMajor_lt hi hc
    have hnot : c * a.rows + i ∉ (List.range b.size).map (a.size + ·) := by
      simp only [List.mem_map, List.mem_range, not_exists, not_and]
      omega
    rw [getComplex, getComplex, offset_of_lt (by rw [hrrows]; omega), offset_of_lt (by omega), hrrows,
      h2.frame _ (by rw [h1.layout.size]; omega) hnot]
    exact h1.written _ (List.mem_range.2 hk)
  · -- an entry of `b` is written by the second run, `a.size` further on
    have hk : c * a.rows + i < b.size := by rw [hsb, Nat.mul_comm a.rows]; exact colMajor_lt hi hc
    have hoff : (a.cols + c) * a.rows + i = a.size + (c * a.rows + i) := by
      rw [hsa, Nat.add_mul, Nat.mul_comm a.cols, Nat.add_assoc]
    rw [getComplex, getComplex, offset_of_lt (by rw [hrrows, hoff]; omega), hrrows, hoff,
      offset_of_lt (by rw [hrows]; omega), hrows]
    exact h2.written _ (List.mem_range.2 hk)

/-! ## Stacked -/

theorem vcat_of_isEmpty_left {a : Matrix} (b : Matrix) (ha : a.isEmpty = true) : vcat a b = .ok b := by
  simp [vcat, ha]

theorem vcat_of_isEmpty_right {a b : Matrix} (ha : a.isEmpty = false) (hb : b.isEmpty = true) :
    vcat a b = .ok a := by
  simp [vcat, ha, hb]

/-- Non-empty operands of different widths do not stack. -/
theorem vcat_of_cols_ne {a b : Matrix} (ha : a.isEmpty = false) (hb : b.isEmpty = false)
    (h : a.cols ≠ b.cols) :
    vcat a b = .error (Fault.nonConformable "|" a.shape b.shape : EvalError) := by
  simp [vcat, ha, hb, h]

/-- Operands of one width whose stack has fewer than `2^64` entries each count their entries
exactly. -/
theorem overflows_of_stack {a b : Matrix} (hcols : b.cols = a.cols)
    (hbound : (a.rows + b.rows) * a.cols < Word.modulus) :
    a.overflows = false ∧ b.overflows = false := by
  simp only [overflows, decide_eq_false_iff_not, not_le, hcols]
  exact ⟨lt_of_le_of_lt (Nat.mul_le_mul_right _ (Nat.le_add_right _ _)) hbound,
    lt_of_le_of_lt (Nat.mul_le_mul_right _ (Nat.le_add_left _ _)) hbound⟩

/-- Operands whose stack has fewer than `2^64` entries never run past their entries. -/
theorem vcatOverrun_of_lt {a b : Matrix} (hcols : b.cols = a.cols)
    (hbound : (a.rows + b.rows) * a.cols < Word.modulus) : vcatOverrun a b = none := by
  obtain ⟨hoa, hob⟩ := overflows_of_stack hcols hbound
  -- the stacked height is a word times the width; with no columns there is nothing to count
  have hstack : Word.add a.rows b.rows * a.cols < Word.modulus := by
    by_cases hc : a.cols = 0
    · rw [hc, Nat.mul_zero]
      exact lt_of_le_of_lt (Nat.zero_le _) hbound
    · have hsum : a.rows + b.rows < Word.modulus :=
        lt_of_le_of_lt (Nat.le_mul_of_pos_right _ (Nat.pos_of_ne_zero hc)) hbound
      rw [Word.add, Word.wrap_of_lt hsum]
      exact hbound
  unfold vcatOverrun
  simp only [hoa, hob, Bool.false_or, not_le.2 hstack, decide_false, Bool.not_false, Bool.true_or,
    ↓reduceIte]

/-- The writes of a stack, column by column: the entries of `a`, then those of `b` below them. -/
def stackCells (a b : Matrix) : List (Nat × Nat × Complex) :=
  (List.range a.cols).flatMap fun j =>
    (List.range a.rows).map (fun i => (i, j, a.getComplex i j)) ++
      (List.range b.rows).map (fun i => (a.rows + i, j, b.getComplex i j))

theorem mem_stackCells {a b : Matrix} {p : Nat × Nat × Complex} :
    p ∈ stackCells a b ↔ ∃ j < a.cols,
      (∃ i < a.rows, p = (i, j, a.getComplex i j)) ∨ (∃ i < b.rows, p = (a.rows + i, j, b.getComplex i j)) := by
  simp only [stackCells, List.mem_flatMap, List.mem_range, List.mem_append, List.mem_map]
  constructor
  · rintro ⟨j, hj, (⟨i, hi, rfl⟩ | ⟨i, hi, rfl⟩)⟩
    · exact ⟨j, hj, .inl ⟨i, hi, rfl⟩⟩
    · exact ⟨j, hj, .inr ⟨i, hi, rfl⟩⟩
  · rintro ⟨j, hj, (⟨i, hi, rfl⟩ | ⟨i, hi, rfl⟩)⟩
    · exact ⟨j, hj, .inl ⟨i, hi, rfl⟩⟩
    · exact ⟨j, hj, .inr ⟨i, hi, rfl⟩⟩

/-- Column by column, the writes of a stack cover the positions `0 .. cols · rows` in order. -/
theorem stackCells_positions (n ra rb : Nat) (u v : Nat → Nat → Complex) :
    ((List.range n).flatMap fun j =>
        (List.range ra).map (fun i => (i, j, u i j)) ++ (List.range rb).map (fun i => (ra + i, j, v i j))).map
      (fun p => p.2.1 * (ra + rb) + p.1) = List.range (n * (ra + rb)) := by
  induction n with
  | zero => simp
  | succ n ih =>
    rw [List.range_succ, List.flatMap_append, List.map_append, ih, Nat.succ_mul, List.range_add,
      List.range_add]
    simp [Function.comp_def]

/-- The nested loops of a stack write the cells of `stackCells` in order. -/
theorem foldl_stack (a b out : Matrix) :
    (List.range a.cols).foldl (fun o j =>
        (List.range b.rows).foldl (fun o i => o.setComplex (a.rows + i) j (b.getComplex i j))
          ((List.range a.rows).foldl (fun o i => o.setComplex i j (a.getComplex i j)) o)) out =
      (stackCells a b).foldl (fun o p => o.setComplex p.1 p.2.1 p.2.2) out := by
  simp only [stackCells, List.foldl_flatMap, List.foldl_append, List.foldl_map]

/-- **Stacked.** Two non-empty operands of one width, stacked below `2^64` entries, give the
matrix of both heights and that width, complex when either is, with the entries of `a` in its
first rows and those of `b` below them. -/
theorem vcat_blocks {a b : Matrix} (ha : a.isEmpty = false) (hb : b.isEmpty = false)
    (hcols : b.cols = a.cols) (hbound : (a.rows + b.rows) * a.cols < Word.modulus) :
    ∃ r, vcat a b = .ok r ∧ r.rows = a.rows + b.rows ∧ r.cols = a.cols ∧
      r.isComplex = (a.isComplex || b.isComplex) ∧
      (∀ i < a.rows, ∀ c < a.cols, r.getComplex i c = a.getComplex i c) ∧
      (∀ i < b.rows, ∀ c < a.cols, r.getComplex (a.rows + i) c = b.getComplex i c) := by
  obtain ⟨hoa, hob⟩ := overflows_of_stack hcols hbound
  -- the zeros of the stacked shape, complex when an operand is
  set zs := zeros (a.rows + b.rows) a.cols
  set out := if (a.isComplex || b.isComplex) = true then zs.promote else zs with hout
  have hlayout : SameLayout zs out := layout_promoteIf zs _
  have hkind : out.isComplex = (a.isComplex || b.isComplex) := isComplex_promoteIf zs _ rfl
  have hsize : out.entries.size = a.cols * (a.rows + b.rows) := by
    rw [hlayout.size, zeros_size, Word.mul, Word.wrap_of_lt hbound, Nat.mul_comm]
  have hrows : out.rows = a.rows + b.rows := by rw [hlayout.rows]; rfl
  -- every cell lies in the stacked shape, at its plain column-major offset
  have hcell : ∀ p ∈ stackCells a b, p.2.1 * (a.rows + b.rows) + p.1 < a.cols * (a.rows + b.rows) := by
    intro p hp
    obtain ⟨j, hj, ⟨i, hi, rfl⟩ | ⟨i, hi, rfl⟩⟩ := mem_stackCells.1 hp
    · exact colMajor_lt (by omega) hj
    · exact colMajor_lt (by omega) hj
  have hlt : a.cols * (a.rows + b.rows) < Word.modulus := by rw [Nat.mul_comm]; exact hbound
  have hpos : ∀ p ∈ stackCells a b, out.offset p.1 p.2.1 = p.2.1 * (a.rows + b.rows) + p.1 := by
    intro p hp
    rw [offset_of_lt (by rw [hrows]; exact (hcell p hp).trans hlt), hrows]
  have hnd : ((stackCells a b).map fun p => p.2.1 * (a.rows + b.rows) + p.1).Nodup := by
    rw [stackCells, stackCells_positions]
    exact List.nodup_range
  have hholds : ∀ p ∈ stackCells a b, out.Holds p.2.2 := by
    intro p hp
    obtain ⟨j, hj, ⟨i, hi, rfl⟩ | ⟨i, hi, rfl⟩⟩ := mem_stackCells.1 hp
    · exact holds_of_join (fun hm => by simp [hkind, hm]) _
    · exact holds_of_join (fun hm => by simp [hkind, hm]) _
  have hw := foldl_setAt_written (fun p => p.2.1 * (a.rows + b.rows) + p.1) (fun p => p.2.2)
    (stackCells a b) out hnd (fun p hp => hsize ▸ hcell p hp) hholds
  set r := (stackCells a b).foldl (fun o p => o.setAt (p.2.1 * (a.rows + b.rows) + p.1) p.2.2) out
  have hrrows : r.rows = a.rows + b.rows := by rw [hw.layout.rows, hrows]
  -- the entry at `(i, c)` is the one the cell of `(i, c)` wrote
  have hread : ∀ i < a.rows + b.rows, ∀ c < a.cols, ∀ z, (i, c, z) ∈ stackCells a b →
      r.getComplex i c = z := by
    intro i hi c hc z hz
    rw [getComplex, offset_of_lt (by rw [hrrows]; exact (colMajor_lt hi hc).trans hlt), hrrows]
    exact hw.written _ hz
  refine ⟨r, ?_, hrrows, ?_, hw.complex.trans hkind, fun i hi c hc => ?_, fun i hi c hc => ?_⟩
  · simp only [vcat, ha, hb, hcols, bne_self_eq_false, Bool.false_eq_true, ↓reduceIte,
      vcatOverrun_of_lt hcols hbound, hoa, hob, Bool.or_false]
    rw [foldl_stack, Matrix.foldl_setComplex_eq _ _ _ hpos]
  · rw [hw.layout.cols, hlayout.cols]
    rfl
  · exact hread i (by omega) c hc _ (mem_stackCells.2 ⟨c, hc, .inl ⟨i, hi, rfl⟩⟩)
  · exact hread (a.rows + i) (by omega) c hc _ (mem_stackCells.2 ⟨c, hc, .inr ⟨i, hi, rfl⟩⟩)

end Linalg

end SeriesCalc
