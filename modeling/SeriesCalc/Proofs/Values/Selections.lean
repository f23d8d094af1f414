import SeriesCalc.Proofs.Values.Counts
import SeriesCalc.Proofs.Values.Blocks
import SeriesCalc.Proofs.Values.Concat

/-!
# Selections stay inside their matrix

A subscript names positions along a dimension of length `len` by 1-based float indices
(`position`, `positionRange`, `dimension`), and `Selection.resolve` turns one or two subscripts
into the column-major offsets of a block of a matrix of shape `nr × nc`.

* **Positions.** Below `2^53`, `position x len` succeeds exactly on the floats of `1..len`, and
  then gives the 0-based position (`position_eq_ok`); a range succeeds exactly on two such
  floats in order (`positionRange_eq_ok`). Every position a dimension names is below its length
  (`dimension_lt`).
* **Blocks.** A block of offsets has `rows · cols` of them, one when every subscript was one
  index (`Selection.resolve_block_length`), and below `2^53` positions each offset lies in
  the shape (`Selection.resolve_block_lt`).
* **Reads and writes.** A block read out has the block's shape; in a sound matrix whose shape
  has fewer than `2^53` entries every selected offset is a stored entry, so reading finds no
  overrun; a splice that returns wrote stored entries only
  (`Selection.selection_stays_inside`). In a matrix whose shape's product passes a word,
  offsets still lie in the shape but the stored entries are only its wrapped count, so a read
  can run past them.
-/

namespace SeriesCalc

/-! ## Positions -/

theorem position_ok_cases {x : Float} {len p : Nat} (h : position x len = .ok p) :
    x.isWhole = true ∧ ¬ x < 1 ∧ ¬ len.toFloat < x ∧ p = x.toCount - 1 := by
  unfold position at h
  split at h
  · cases h
  · rename_i hw
    split at h
    · cases h
    · rename_i hr
      cases h
      simp only [Bool.not_eq_true', Bool.not_eq_false] at hw
      simp only [Bool.or_eq_true, decide_eq_true_eq, gt_iff_lt, not_or] at hr
      exact ⟨hw, hr.1, hr.2, rfl⟩

theorem position_of_isIndex {x : Float} {len : Nat} (hw : x.isWhole = true) (h1 : ¬ x < 1)
    (hle : ¬ len.toFloat < x) : position x len = .ok (x.toCount - 1) := by
  unfold position
  have hr : (x < 1 || x > len.toFloat) = false := by
    simp only [Bool.or_eq_false_iff, decide_eq_false_iff_not, gt_iff_lt]
    exact ⟨h1, hle⟩
  rw [hw, hr]
  rfl

/-- Below `2^53`, a 1-based index gives a position exactly when it is the float of one of
`1..len`; the position is one less. -/
theorem position_eq_ok {x : Float} {len p : Nat} (hlen : len < 2 ^ 53) :
    position x len = .ok p ↔ p < len ∧ x = (p + 1).toFloat := by
  constructor
  · intro h
    obtain ⟨hw, h1, hle, rfl⟩ := position_ok_cases h
    obtain ⟨q, hq, rfl⟩ := (Float.isIndex_iff hlen).mp ⟨hw, h1, hle⟩
    rw [Float.toCount_toFloat (by omega), Nat.add_sub_cancel]
    exact ⟨hq, rfl⟩
  · rintro ⟨hp, rfl⟩
    obtain ⟨hw, h1, hle⟩ := (Float.isIndex_iff hlen).mpr ⟨p, hp, rfl⟩
    rw [position_of_isIndex hw h1 hle, Float.toCount_toFloat (by omega), Nat.add_sub_cancel]

theorem position_lt {x : Float} {len p : Nat} (hlen : len < 2 ^ 53) (h : position x len = .ok p) :
    p < len :=
  ((position_eq_ok hlen).mp h).1

/-- Below `2^53`, a range of 1-based indices gives bounds exactly when both ends are floats of
`1..len` and the first is not after the second. -/
theorem positionRange_eq_ok {lo hi : Float} {len p q : Nat} (hlen : len < 2 ^ 53) :
    positionRange lo hi len = .ok (p, q) ↔
      p ≤ q ∧ q < len ∧ lo = (p + 1).toFloat ∧ hi = (q + 1).toFloat := by
  constructor
  · intro h
    unfold positionRange at h
    obtain ⟨a, ha, h₁⟩ := Except.bind_eq_ok h
    obtain ⟨b, hb, h₂⟩ := Except.bind_eq_ok h₁
    split at h₂
    · cases h₂
    · rename_i hba
      cases h₂
      obtain ⟨-, rfl⟩ := (position_eq_ok hlen).mp ha
      obtain ⟨hq, rfl⟩ := (position_eq_ok hlen).mp hb
      exact ⟨by omega, hq, rfl, rfl⟩
  · rintro ⟨hpq, hq, rfl, rfl⟩
    unfold positionRange
    rw [(position_eq_ok hlen).mpr ⟨by omega, rfl⟩, (position_eq_ok hlen).mpr ⟨hq, rfl⟩]
    simp only [bind, Except.bind, if_neg (Nat.not_lt.mpr hpq)]
    rfl

/-- What a list of positions found one by one holds was found for some member. -/
theorem mapM_mem {α : Type} {f : α → Except EvalError Nat} :
    ∀ {l : List α} {ps : List Nat}, l.mapM f = .ok ps → ∀ p ∈ ps, ∃ a ∈ l, f a = .ok p
  | [], ps, h, p, hp => by
    cases h
    cases hp
  | a :: l, ps, h, p, hp => by
    rw [List.mapM_cons] at h
    obtain ⟨b, hb, h⟩ := Except.bind_eq_ok h
    obtain ⟨bs, hbs, h⟩ := Except.bind_eq_ok h
    cases h
    rcases List.mem_cons.mp hp with rfl | hp
    · exact ⟨a, List.mem_cons_self, hb⟩
    · obtain ⟨c, hc, hfc⟩ := mapM_mem hbs p hp
      exact ⟨c, List.mem_cons_of_mem a hc, hfc⟩

/-- Below `2^53`, every position a dimension names is below its length. -/
theorem dimension_lt {arg : Subscript} {len : Nat} {ps : List Nat} (hlen : len < 2 ^ 53)
    (h : dimension arg len = .ok ps) : ∀ p ∈ ps, p < len := by
  intro p hp
  unfold dimension at h
  split at h
  · obtain ⟨_, -, h⟩ := Except.bind_eq_ok h
    cases h
    exact List.mem_range.mp hp
  · obtain ⟨q, hq, h⟩ := Except.bind_eq_ok h
    cases h
    rw [List.mem_singleton.mp hp]
    exact position_lt hlen hq
  · obtain ⟨⟨a, b⟩, hab, h⟩ := Except.bind_eq_ok h
    obtain ⟨_, -, h⟩ := Except.bind_eq_ok h
    cases h
    obtain ⟨-, hb, -, -⟩ := (positionRange_eq_ok hlen).mp hab
    have := List.mem_range.mp (List.mem_of_mem_drop hp)
    omega
  · unfold indexVector at h
    split at h
    · cases h
    · obtain ⟨k, -, hk⟩ := mapM_mem h p hp
      exact position_lt hlen hk
  · cases h

/-- One index names one position. -/
theorem dimension_num {x : Float} {len : Nat} {ps : List Nat} (h : dimension (.num x) len = .ok ps) :
    ps.length = 1 := by
  unfold dimension at h
  obtain ⟨q, -, h⟩ := Except.bind_eq_ok h
  cases h
  rfl

/-! ## Blocks -/

namespace Selection

theorem mem_triangle_lt {s : Selector} {nr nc o : Nat} (h : o ∈ triangle s nr nc) : o < nr * nc := by
  unfold triangle at h
  obtain ⟨j, hj, h⟩ := List.mem_flatMap.mp h
  obtain ⟨i, hi, rfl⟩ := List.mem_map.mp h
  have hi := List.mem_range.mp (List.mem_filter.mp hi).1
  have hj := List.mem_range.mp hj
  exact Nat.lt_of_lt_of_le (colMajor_lt hi hj) (Nat.le_of_eq (Nat.mul_comm nc nr))

/-- A word sum of a word product stays at or below the plain one. -/
theorem add_mul_le (c r i : Nat) : Word.add (Word.mul c r) i ≤ c * r + i := by
  unfold Word.add Word.mul Word.wrap
  calc (c * r % Word.modulus + i) % Word.modulus ≤ c * r % Word.modulus + i := Nat.mod_le _ _
    _ ≤ c * r + i := Nat.add_le_add_right (Nat.mod_le _ _) i

/-- The offsets of a block of rows and columns: as many as rows times columns. -/
theorem length_pairs (rows cols : List Nat) (nr : Nat) :
    (cols.flatMap fun j => rows.map fun i => Word.add (Word.mul j nr) i).length =
      rows.length * cols.length := by
  induction cols with
  | nil => rfl
  | cons j cols ih =>
    rw [List.flatMap_cons, List.length_append, ih, List.length_map, List.length_cons,
      Nat.mul_succ, Nat.add_comm]

/-- One subscript: a mask or a linear index into the `nr · nc` entries taken as a word. -/
theorem linear_block {arg : Subscript} {nr nc : Nat} {offsets : List Nat} {rows cols : Nat}
    {single : Bool} (h : linear arg nr nc = .ok (.block offsets rows cols single)) :
    offsets.length = rows * cols ∧ (single = true → offsets.length = 1) ∧
      (Word.mul nr nc < 2 ^ 53 → ∀ o ∈ offsets, o < Word.mul nr nc) := by
  unfold linear at h
  dsimp only at h
  -- the offsets come from a mask or from a dimension of the word length, and the block is
  -- their column, or their row for a row vector
  split at h
  · split at h
    · obtain ⟨ks, hks, h⟩ := Except.bind_eq_ok h
      cases hks
      split at h <;> cases h <;>
        exact ⟨by simp, (fun hs => by cases hs), fun _ o ho => List.mem_range.mp (List.mem_filter.mp ho).1⟩
    · obtain ⟨ks, hks, h⟩ := Except.bind_eq_ok h
      split at h <;> cases h <;> exact ⟨by simp, (fun hs => by cases hs), fun hlen => dimension_lt hlen hks⟩
  · obtain ⟨ks, hks, h⟩ := Except.bind_eq_ok h
    split at h <;> cases h <;> refine ⟨by simp, fun hs => ?_, fun hlen => dimension_lt hlen hks⟩ <;>
      cases arg with
      | num x => exact dimension_num hks
      | _ => cases hs

/-- A block of offsets has `rows · cols` of them, and one when every subscript was one index. -/
theorem resolve_block_length {args : List Subscript} {nr nc : Nat} {offsets : List Nat}
    {rows cols : Nat} {single : Bool}
    (h : resolve args (nr, nc) = .ok (.block offsets rows cols single)) :
    offsets.length = rows * cols ∧ (single = true → offsets.length = 1) := by
  unfold resolve at h
  dsimp only at h
  split at h
  · cases h
  · cases h
  · cases h
    exact ⟨(Nat.mul_one _).symm, fun hs => by cases hs⟩
  · exact (linear_block h).imp_right And.left
  · rename_i r c
    obtain ⟨rs, hrs, h⟩ := Except.bind_eq_ok h
    obtain ⟨cs, hcs, h⟩ := Except.bind_eq_ok h
    cases h
    refine ⟨length_pairs rs cs nr, fun hs => ?_⟩
    rw [length_pairs]
    cases r <;> cases c <;> try cases hs
    rw [dimension_num hrs, dimension_num hcs]
  · cases h

/-- Below `2^53` positions, every offset of a block lies in the shape. -/
theorem resolve_block_lt {args : List Subscript} {nr nc : Nat} {offsets : List Nat}
    {rows cols : Nat} {single : Bool}
    (h : resolve args (nr, nc) = .ok (.block offsets rows cols single)) (hsize : nr * nc < 2 ^ 53) :
    ∀ o ∈ offsets, o < nr * nc := by
  intro o ho
  unfold resolve at h
  dsimp only at h
  split at h
  · cases h
  · cases h
  · cases h
    exact mem_triangle_lt ho
  · have hw : Word.mul nr nc = nr * nc := Word.wrap_of_lt (by show nr * nc < 2 ^ 64; omega)
    rw [← hw]
    exact (linear_block h).2.2 (by omega) o ho
  · obtain ⟨rs, hrs, h⟩ := Except.bind_eq_ok h
    obtain ⟨cs, hcs, h⟩ := Except.bind_eq_ok h
    cases h
    obtain ⟨j, hj, ho⟩ := List.mem_flatMap.mp ho
    obtain ⟨i, hi, rfl⟩ := List.mem_map.mp ho
    -- an empty dimension names nothing; otherwise both lengths are below `2^53`
    have hnr : 0 < nr := by
      rcases Nat.eq_zero_or_pos nr with h0 | h0
      · subst h0
        exact absurd (dimension_lt (by decide) hrs i hi) (Nat.not_lt_zero _)
      · exact h0
    have hnc : 0 < nc := by
      rcases Nat.eq_zero_or_pos nc with h0 | h0
      · subst h0
        exact absurd (dimension_lt (by decide) hcs j hj) (Nat.not_lt_zero _)
      · exact h0
    have hi := dimension_lt (Nat.lt_of_le_of_lt (Nat.le_mul_of_pos_right nr hnc) hsize) hrs i hi
    have hj := dimension_lt (Nat.lt_of_le_of_lt (Nat.le_mul_of_pos_left nc hnr) hsize) hcs j hj
    calc Word.add (Word.mul j nr) i ≤ j * nr + i := add_mul_le j nr i
      _ < nc * nr := colMajor_lt hi hj
      _ = nr * nc := Nat.mul_comm nc nr
  · cases h

end Selection

/-! ## Reads and writes -/

/-- A sound matrix whose shape has fewer than `2^64` entries stores at least that many. -/
theorem Matrix.Sound.size_le {m : Matrix} (hm : m.Sound) (h : m.rows * m.cols < Word.modulus) :
    m.rows * m.cols ≤ m.entries.size := by
  have hw : Word.wrap m.entries.size = m.rows * m.cols := by
    rw [hm]
    exact Matrix.size_of_lt h
  rw [← hw]
  exact Nat.mod_le _ _

namespace Selection

/-- A block read out of a matrix has the block's shape. -/
theorem extract_shape (m : Matrix) (offsets : List Nat) (rows cols : Nat) (single : Bool) :
    (extract m (.block offsets rows cols single)).shape = (rows, cols) := by
  have hout : Matrix.SameLayout (Matrix.zeros rows cols)
      (if m.isComplex then (Matrix.zeros rows cols).promote else Matrix.zeros rows cols) := by
    split
    · exact Matrix.sameLayout_promote _
    · exact .refl _
  have hl : Matrix.SameLayout (Matrix.zeros rows cols) (extract m (.block offsets rows cols single)) := by
    unfold extract
    exact hout.trans (Matrix.SameLayout.foldl (fun o x => Matrix.sameLayout_setAt o _ _) _ _)
  show (_, _) = _
  rw [hl.rows, hl.cols]
  rfl

/-- A block finds no overrun exactly when each of its offsets is a stored entry. -/
theorem overrun_eq_none_iff {offsets : List Nat} {rows cols : Nat} {single : Bool} {len : Nat} :
    (Selection.block offsets rows cols single).overrun len = none ↔ ∀ o ∈ offsets, o < len := by
  unfold overrun
  rw [Option.map_eq_none_iff, List.find?_eq_none]
  simp

/-- A splice of a block that returns wrote stored entries only. -/
theorem splice_block_lt {m block m' : Matrix} {offsets : List Nat} {rows cols : Nat} {single : Bool}
    (h : splice m (.block offsets rows cols single) block = .ok m') : ∀ o ∈ offsets, o < m.entries.size := by
  unfold splice at h
  dsimp only at h
  split at h
  · cases h
  · split at h
    · cases h
    · rename_i hover
      apply overrun_eq_none_iff.mp
      cases ho : (Selection.block offsets rows cols single).overrun m.entries.size with
      | none => rfl
      | some o => exact absurd ho (hover o)

/-- A resolved block of a matrix selection: `rows · cols` offsets, one for a single index, each
in the shape when its positions are below `2^53`. Read out, it is a `rows × cols` matrix; in a
sound matrix whose shape has fewer than `2^53` entries every offset is a stored entry, so the
read finds no overrun; a splice that returns keeps the layout and wrote stored entries only. -/
theorem selection_stays_inside {args : List Subscript} {nr nc : Nat} {offsets : List Nat}
    {rows cols : Nat} {single : Bool}
    (h : resolve args (nr, nc) = .ok (.block offsets rows cols single)) :
    offsets.length = rows * cols ∧ (single = true → offsets.length = 1) ∧
      (nr * nc < 2 ^ 53 → ∀ o ∈ offsets, o < nr * nc) ∧
      ∀ m : Matrix, m.shape = (nr, nc) →
        (extract m (.block offsets rows cols single)).shape = (rows, cols) ∧
        (m.Sound → nr * nc < 2 ^ 53 → (∀ o ∈ offsets, o < m.entries.size) ∧
          (Selection.block offsets rows cols single).overrun m.entries.size = none) ∧
        ∀ block m', splice m (.block offsets rows cols single) block = .ok m' →
          Matrix.SameLayout m m' ∧ ∀ o ∈ offsets, o < m.entries.size := by
  obtain ⟨hlen, hsingle⟩ := resolve_block_length h
  refine ⟨hlen, hsingle, resolve_block_lt h, fun m hshape => ⟨extract_shape m offsets rows cols single,
    fun hm hsize => ?_, fun block m' hs => ⟨splice_sameLayout hs, splice_block_lt hs⟩⟩⟩
  obtain ⟨rfl, rfl⟩ := Prod.mk.inj hshape
  -- the stored entries cover the shape, which covers every offset
  have hstored := Matrix.Sound.size_le hm (by show m.rows * m.cols < 2 ^ 64; omega)
  have hin : ∀ o ∈ offsets, o < m.entries.size :=
    fun o ho => Nat.lt_of_lt_of_le (resolve_block_lt h hsize o ho) hstored
  exact ⟨hin, overrun_eq_none_iff.mpr hin⟩

/-- All of a `2 × 3` matrix, column by column. -/
theorem whole_two_by_three_stays_inside :
    resolve [.all, .all] (2, 3) = .ok (.block [0, 1, 2, 3, 4, 5] 2 3 false) ∧
      ∀ m : Matrix, m.shape = (2, 3) →
        (extract m (.block [0, 1, 2, 3, 4, 5] 2 3 false)).shape = (2, 3) :=
  have h : resolve [.all, .all] (2, 3) = .ok (.block [0, 1, 2, 3, 4, 5] 2 3 false) := rfl
  ⟨h, fun m hm => ((selection_stays_inside h).2.2.2 m hm).1⟩

end Selection

end SeriesCalc
