import SeriesCalc.Proofs.Values.Selections

/-!
# Broadcast reads stay in range

An elementwise operation and a plain comparison of two matrices walk the result shape that
`MatrixOps.broadcastShape` chooses and read each operand at `MatrixOps.bidx`, which sends a
singleton dimension of the operand to its only row or column.

* The chosen shape agrees with each operand's dimension, or the operand's dimension is 1
  (`MatrixOps.broadcastShape_fits`): equal shapes, a 1×1 operand, or, for the dotted operators,
  a singleton broadcast per dimension.
* So the offset read for a position `(r, c)` of the result lies in the operand's shape
  (`MatrixOps.bidx_lt`), and the walk reads stored entries of sound operands whenever the
  result's shape has fewer than `2^64` positions (`MatrixOps.broadcast_reads_in_range`). A
  result shape whose product passes a word is the one case left: an operand of that shape
  stores only the wrapped count of entries, and the walk stops at the first read past them.
-/

namespace SeriesCalc

namespace MatrixOps

/-- One dimension of a broadcast: the dimension both have, or the other's where one is 1. -/
theorem dim_eq_some {x y r : Nat}
    (h : (if x == y then some x else if x == 1 then some y else if y == 1 then some x else none) = some r) :
    (x = r ∨ x = 1) ∧ (y = r ∨ y = 1) := by
  split at h
  · rename_i hxy
    cases h
    have := beq_iff_eq.mp hxy
    omega
  · split at h
    · rename_i hx
      cases h
      exact ⟨.inr (beq_iff_eq.mp hx), .inl rfl⟩
    · split at h
      · rename_i hy
        cases h
        exact ⟨.inl rfl, .inr (beq_iff_eq.mp hy)⟩
      · cases h

/-- Each operand's dimension is the result's, or is 1. -/
theorem broadcastShape_fits {op : BinaryOp} {a b : Nat × Nat} {dot : Bool} {rows cols : Nat}
    (h : broadcastShape op a b dot = .ok (rows, cols)) :
    (a.1 = rows ∨ a.1 = 1) ∧ (a.2 = cols ∨ a.2 = 1) ∧ (b.1 = rows ∨ b.1 = 1) ∧ (b.2 = cols ∨ b.2 = 1) := by
  obtain ⟨a1, a2⟩ := a
  obtain ⟨b1, b2⟩ := b
  unfold broadcastShape at h
  dsimp only at h
  split at h
  · -- equal shapes
    rename_i hab
    cases h
    obtain ⟨rfl, rfl⟩ := Prod.mk.inj (beq_iff_eq.mp hab)
    exact ⟨.inl rfl, .inl rfl, .inl rfl, .inl rfl⟩
  · split at h
    · -- a 1×1 left operand
      rename_i ha
      cases h
      obtain ⟨rfl, rfl⟩ := Prod.mk.inj (beq_iff_eq.mp ha)
      exact ⟨.inr rfl, .inr rfl, .inl rfl, .inl rfl⟩
    · split at h
      · -- a 1×1 right operand
        rename_i hb
        cases h
        obtain ⟨rfl, rfl⟩ := Prod.mk.inj (beq_iff_eq.mp hb)
        exact ⟨.inl rfl, .inl rfl, .inr rfl, .inr rfl⟩
      · -- a dotted operator broadcasts each dimension on its own
        split at h
        · rename_i r c hr hc
          cases h
          obtain ⟨ha1, hb1⟩ := dim_eq_some hr
          obtain ⟨ha2, hb2⟩ := dim_eq_some hc
          exact ⟨ha1, ha2, hb1, hb2⟩
        · cases h

/-- An index into a dimension that is the result's or 1, sent to 0 when it is 1, lies in it. -/
theorem broadcast_index_lt {d n i : Nat} (hd : d = n ∨ d = 1) (hi : i < n) :
    (if d == 1 then 0 else i) < d := by
  split
  · rename_i h1
    rw [beq_iff_eq.mp h1]
    exact Nat.one_pos
  · rename_i h1
    have : d ≠ 1 := fun h => h1 (beq_iff_eq.mpr h)
    omega

/-- The offset read for a position of the result lies in an operand whose dimensions are the
result's or 1. -/
theorem bidx_lt {m : Matrix} {rows cols r c : Nat} (hrs : m.rows = rows ∨ m.rows = 1)
    (hcs : m.cols = cols ∨ m.cols = 1) (hr : r < rows) (hc : c < cols) :
    bidx m r c < m.rows * m.cols := by
  have hr' := broadcast_index_lt hrs hr
  have hc' := broadcast_index_lt hcs hc
  unfold bidx Matrix.offset
  calc Word.add (Word.mul (if m.cols == 1 then 0 else c) m.rows) (if m.rows == 1 then 0 else r)
      ≤ (if m.cols == 1 then 0 else c) * m.rows + (if m.rows == 1 then 0 else r) :=
        Selection.add_mul_le _ _ _
    _ < m.cols * m.rows := colMajor_lt hr' hc'
    _ = m.rows * m.cols := Nat.mul_comm _ _

/-- A sound operand whose dimensions are those of a result shape with fewer than `2^64`
positions, or 1, stores every offset read for a position of the result. -/
theorem bidx_lt_size {m : Matrix} {rows cols r c : Nat} (hm : m.Sound) (hrs : m.rows = rows ∨ m.rows = 1)
    (hcs : m.cols = cols ∨ m.cols = 1) (hr : r < rows) (hc : c < cols)
    (hsize : rows * cols < Word.modulus) : bidx m r c < m.entries.size := by
  have hle : m.rows * m.cols ≤ rows * cols := by
    apply Nat.mul_le_mul
    · rcases hrs with h | h <;> omega
    · rcases hcs with h | h <;> omega
  exact Nat.lt_of_lt_of_le (bidx_lt hrs hcs hr hc)
    (Matrix.Sound.size_le hm (Nat.lt_of_le_of_lt hle hsize))

/-- Broadcast indexing stays in range: for a broadcast result shape, the offset read from
each operand at every position of the result lies in that operand's shape; and when the result
has fewer than `2^64` positions, every offset the elementwise walk reads (step `k` at row
`k % rows`, column `k / rows`) is a stored entry of sound operands. -/
theorem broadcast_reads_in_range {op : BinaryOp} {a b : Matrix} {dot : Bool} {rows cols : Nat}
    (h : broadcastShape op a.shape b.shape dot = .ok (rows, cols)) :
    (∀ r < rows, ∀ c < cols, bidx a r c < a.rows * a.cols ∧ bidx b r c < b.rows * b.cols) ∧
      (rows * cols < Word.modulus → a.Sound → b.Sound → ∀ k < Word.mul rows cols,
        bidx a (k % rows) (k / rows) < a.entries.size ∧
          bidx b (k % rows) (k / rows) < b.entries.size) := by
  obtain ⟨ha1, ha2, hb1, hb2⟩ := broadcastShape_fits h
  refine ⟨fun r hr c hc => ⟨bidx_lt ha1 ha2 hr hc, bidx_lt hb1 hb2 hr hc⟩,
    fun hsize ha hb k hk => ?_⟩
  -- the walk's step `k` is the position `(k % rows, k / rows)` of the result
  rw [show Word.mul rows cols = rows * cols from Word.wrap_of_lt hsize] at hk
  have hrows : 0 < rows := Nat.pos_of_ne_zero fun h0 => by simp [h0] at hk
  have hr : k % rows < rows := Nat.mod_lt k hrows
  have hc : k / rows < cols := (Nat.div_lt_iff_lt_mul hrows).mpr (by rw [Nat.mul_comm]; exact hk)
  exact ⟨bidx_lt_size ha ha1 ha2 hr hc hsize, bidx_lt_size hb hb1 hb2 hr hc hsize⟩

/-- A column and a row under a dotted operator broadcast to a `2 × 3` result. -/
theorem column_and_row_read_in_range :
    broadcastShape .add (Matrix.zeros 2 1).shape (Matrix.zeros 1 3).shape true = .ok (2, 3) ∧
      bidx (Matrix.zeros 2 1) 1 2 < (Matrix.zeros 2 1).rows * (Matrix.zeros 2 1).cols :=
  have h : broadcastShape .add (Matrix.zeros 2 1).shape (Matrix.zeros 1 3).shape true = .ok (2, 3) := rfl
  ⟨h, ((broadcast_reads_in_range h).1 1 (by decide) 2 (by decide)).1⟩

end MatrixOps

end SeriesCalc
