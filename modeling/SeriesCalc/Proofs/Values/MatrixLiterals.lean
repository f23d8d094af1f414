import Mathlib
import SeriesCalc.Proofs.Values.Concat
import SeriesCalc.Proofs.MissingValues
import SeriesCalc.Proofs.SampleReads

/-!
# Matrix literals are block matrices

A literal `{e11, e12, ...; e21, ...}` reads each element as a matrix (a scalar as `1 × 1`, a series
as the column of its sample), joins the elements of each row side by side from the empty matrix,
and stacks the rows under each other, again from the empty matrix (`matrixLiteralOp`). Over the
element matrices this is `Literal.blockMatrix`.

* `exec_matrixLiteralOp`: the operator leaves exactly `blockMatrix` of its elements, with the
  sample as span when an element is a series, or fails as it does and leaves the cell alone.
* `blockMatrix_prune`: empty elements contribute nothing. Leaving them out, and the rows that
  have nothing else, gives the same matrix, except that a literal whose result is empty may end
  with another empty shape (`{zeros(2,0)}` is `2 × 0`, `{}` is `0 × 0`).
* `blockMatrix_blocks`: for elements that are all non-empty, in rows that all have elements, and
  fewer than `2^64` entries in all, the literal succeeds exactly when the grid is `Conformable`,
  and then holds every element as the block at its row and column offsets (`Blocks`).
-/

namespace SeriesCalc

namespace Literal

/-! ## Grids of element matrices -/

/-- The height of a row of a literal: that of its first element. -/
def height (row : List Matrix) : Nat := (row.head?.map Matrix.rows).getD 0

/-- The width of a row: the columns of all its elements. -/
def width (row : List Matrix) : Nat := (row.map Matrix.cols).sum

/-- Where element `j` of a row starts: the columns of the elements before it. -/
def colOffset (row : List Matrix) (j : Nat) : Nat := width (row.take j)

/-- Where row `i` of a grid starts: the heights of the rows before it. -/
def rowOffset (grid : List (List Matrix)) (i : Nat) : Nat := ((grid.take i).map height).sum

/-- All the rows of all the elements of a grid, and all their columns. -/
def totalRows (grid : List (List Matrix)) : Nat := (grid.map fun row => (row.map Matrix.rows).sum).sum

def totalCols (grid : List (List Matrix)) : Nat := (grid.map width).sum

/-- A row joined side by side from the empty matrix, as the literal joins it. -/
def joinRow (row : List Matrix) : Except EvalError Matrix := row.foldlM Linalg.hcat Matrix.empty

/-- One row joined and stacked under the rows before it. -/
def stackRow (acc : Matrix) (row : List Matrix) : Except EvalError Matrix := do
  Linalg.vcat acc (← joinRow row)

/-- The matrix of a grid of elements, as the literal builds it: each row joined, the rows
stacked. -/
def blockMatrix (grid : List (List Matrix)) : Except EvalError Matrix :=
  grid.foldlM stackRow Matrix.empty

/-- The grid without its empty elements, and without the rows this leaves with none. -/
def prune (grid : List (List Matrix)) : List (List Matrix) :=
  (grid.map fun row => row.filter fun m => !m.isEmpty).filter fun row => !row.isEmpty

/-- The elements fit together: those of each row share its height, and all rows have one
width. -/
def Conformable (grid : List (List Matrix)) : Prop :=
  (∀ row ∈ grid, ∀ m ∈ row, m.rows = height row) ∧ ∀ row ∈ grid, ∀ row' ∈ grid, width row = width row'

instance : DecidablePred Conformable := fun _ => inferInstanceAs (Decidable (_ ∧ _))

/-- `r` holds the row `row` joined: its height and width, complex when an element is, and each
element's entries at its column offset. -/
structure Joined (row : List Matrix) (r : Matrix) : Prop where
  heights : ∀ m ∈ row, m.rows = height row
  rows : r.rows = height row
  cols : r.cols = width row
  complex : r.isComplex = row.any Matrix.isComplex
  entry : ∀ j m, row[j]? = some m → ∀ i < m.rows, ∀ c < m.cols,
    r.getComplex i (colOffset row j + c) = m.getComplex i c

/-- `r` holds the grid as blocks: the elements of each row share its height, `r` has the rows'
heights and every row's width, is complex when an element is, and holds each element's entries
at its row and column offsets. -/
structure Blocks (grid : List (List Matrix)) (r : Matrix) : Prop where
  heights : ∀ row ∈ grid, ∀ m ∈ row, m.rows = height row
  rows : r.rows = (grid.map height).sum
  cols : ∀ row ∈ grid, r.cols = width row
  complex : r.isComplex = grid.any fun row => row.any Matrix.isComplex
  entry : ∀ i row, grid[i]? = some row → ∀ j m, row[j]? = some m → ∀ i' < m.rows, ∀ c < m.cols,
    r.getComplex (rowOffset grid i + i') (colOffset row j + c) = m.getComplex i' c

/-! ## Offsets -/

/-- A position inside the `j`-th part of a list of sizes lies below their sum. -/
theorem take_sum_add_lt {l : List Nat} {j x c : Nat} (h : l[j]? = some x) (hc : c < x) :
    (l.take j).sum + c < l.sum := by
  have hj : j < l.length := (List.getElem?_eq_some_iff.1 h).1
  have hx : l[j] = x := (List.getElem?_eq_some_iff.1 h).2
  have hsucc : (l.take (j + 1)).sum = (l.take j).sum + x := by
    rw [List.sum_take_succ l j hj, hx]
  have hle : (l.take (j + 1)).sum ≤ l.sum := (List.take_sublist _ _).sum_le_sum (by simp)
  omega

theorem width_append (p q : List Matrix) : width (p ++ q) = width p + width q := by
  simp [width]

theorem height_append {p : List Matrix} (hp : p ≠ []) (q : List Matrix) :
    height (p ++ q) = height p := by
  obtain ⟨m, p, rfl⟩ := List.exists_cons_of_ne_nil hp
  rfl

theorem colOffset_append_of_le {p : List Matrix} {j : Nat} (h : j ≤ p.length) (q : List Matrix) :
    colOffset (p ++ q) j = colOffset p j := by
  rw [colOffset, colOffset, List.take_append_of_le_length h]

theorem colOffset_length (p : List Matrix) : colOffset p p.length = width p := by
  rw [colOffset, List.take_length]

/-- The columns of element `j` lie within the row's width. -/
theorem colOffset_add_lt {row : List Matrix} {j c : Nat} {m : Matrix} (h : row[j]? = some m)
    (hc : c < m.cols) : colOffset row j + c < width row := by
  have hmap : (row.map Matrix.cols)[j]? = some m.cols := by simp [h]
  have := take_sum_add_lt hmap hc
  rwa [← List.map_take] at this

theorem rowOffset_append_of_le {p : List (List Matrix)} {i : Nat} (h : i ≤ p.length)
    (q : List (List Matrix)) : rowOffset (p ++ q) i = rowOffset p i := by
  rw [rowOffset, rowOffset, List.take_append_of_le_length h]

theorem rowOffset_length (p : List (List Matrix)) : rowOffset p p.length = (p.map height).sum := by
  rw [rowOffset, List.take_length]

/-- The rows of row `i` lie within the heights of the grid. -/
theorem rowOffset_add_lt {grid : List (List Matrix)} {i i' : Nat} {row : List Matrix}
    (h : grid[i]? = some row) (hi : i' < height row) : rowOffset grid i + i' < (grid.map height).sum := by
  have hmap : (grid.map height)[i]? = some (height row) := by simp [h]
  have := take_sum_add_lt hmap hi
  rwa [← List.map_take] at this

/-- An element of the appended row is one of the row's or the new one, past the row's end. -/
theorem getElem?_concat {α : Type} {p : List α} {x y : α} {j : Nat} (h : (p ++ [x])[j]? = some y) :
    (j < p.length ∧ p[j]? = some y) ∨ (j = p.length ∧ y = x) := by
  by_cases hj : j < p.length
  · rw [List.getElem?_append_left hj] at h
    exact .inl ⟨hj, h⟩
  · rw [List.getElem?_append_right (by omega)] at h
    have hlt := (List.getElem?_eq_some_iff.1 h).1
    simp only [List.length_singleton] at hlt
    have hj' : j = p.length := by omega
    subst hj'
    simp only [Nat.sub_self, List.getElem?_cons_zero, Option.some.injEq] at h
    exact .inr ⟨rfl, h.symm⟩

/-! ## Bounds -/

theorem height_le (row : List Matrix) : height row ≤ (row.map Matrix.rows).sum := by
  cases row with
  | nil => simp [height]
  | cons m rest => simp [height]

theorem height_le_totalRows {grid : List (List Matrix)} {row : List Matrix} (h : row ∈ grid) :
    height row ≤ totalRows grid :=
  (height_le row).trans (List.le_sum_of_mem (List.mem_map.2 ⟨row, h, rfl⟩))

theorem sum_height_le (grid : List (List Matrix)) : (grid.map height).sum ≤ totalRows grid :=
  List.sum_le_sum fun row _ => height_le row

theorem width_le_totalCols {grid : List (List Matrix)} {row : List Matrix} (h : row ∈ grid) :
    width row ≤ totalCols grid :=
  List.le_sum_of_mem (List.mem_map_of_mem h)

theorem totalRows_append (p q : List (List Matrix)) : totalRows (p ++ q) = totalRows p + totalRows q := by
  simp [totalRows]

/-! ## Empty elements contribute nothing -/

/-- Two matrices that are the same, or both empty. -/
def SameOrEmpty (x y : Matrix) : Prop := x = y ∨ (x.isEmpty = true ∧ y.isEmpty = true)

/-- Two results that fail alike, or give matrices that are the same or both empty. -/
def Agree : Except EvalError Matrix → Except EvalError Matrix → Prop
  | .ok x, .ok y => SameOrEmpty x y
  | .error e, .error e' => e = e'
  | _, _ => False

theorem SameOrEmpty.refl (x : Matrix) : SameOrEmpty x x := .inl rfl

theorem SameOrEmpty.isEmpty_eq {x y : Matrix} (h : SameOrEmpty x y) : x.isEmpty = y.isEmpty := by
  rcases h with rfl | ⟨hx, hy⟩
  · rfl
  · rw [hx, hy]

theorem Agree.refl : ∀ x : Except EvalError Matrix, Agree x x
  | .ok x => SameOrEmpty.refl x
  | .error _ => rfl

/-- Agreeing results are equal, or both matrices and both empty. -/
theorem agree_iff {x y : Except EvalError Matrix} :
    Agree x y ↔ x = y ∨ ∃ r r', x = .ok r ∧ y = .ok r' ∧ r.isEmpty = true ∧ r'.isEmpty = true := by
  rcases x with e | a <;> rcases y with e' | b <;> simp [Agree, SameOrEmpty]

/-- Agreeing results stay in agreement through steps that respect agreement. -/
theorem Agree.bind {x y : Except EvalError Matrix} {f g : Matrix → Except EvalError Matrix}
    (h : Agree x y) (hfg : ∀ a b, SameOrEmpty a b → Agree (f a) (g b)) : Agree (x >>= f) (y >>= g) := by
  rcases x with e | a <;> rcases y with e' | b
  · have he : e = e' := h
    subst he
    exact Agree.refl (.error e)
  · exact (h : False).elim
  · exact (h : False).elim
  · exact hfg a b h

/-- A join in which an empty operand contributes nothing: the other operand is the result. -/
structure SkipsEmpty (f : Matrix → Matrix → Except EvalError Matrix) : Prop where
  left : ∀ a b, a.isEmpty = true → f a b = .ok b
  right : ∀ a b, a.isEmpty = false → b.isEmpty = true → f a b = .ok a

theorem skipsEmpty_hcat : SkipsEmpty Linalg.hcat :=
  ⟨fun _ b ha => Linalg.hcat_of_isEmpty_left b ha, fun _ _ ha hb => Linalg.hcat_of_isEmpty_right ha hb⟩

theorem skipsEmpty_vcat : SkipsEmpty Linalg.vcat :=
  ⟨fun _ b ha => Linalg.vcat_of_isEmpty_left b ha, fun _ _ ha hb => Linalg.vcat_of_isEmpty_right ha hb⟩

section Skips

variable {f : Matrix → Matrix → Except EvalError Matrix}

/-- Joining an empty operand keeps the matrix joined so far, up to an empty shape. -/
theorem SkipsEmpty.skip (hf : SkipsEmpty f) {a a' b : Matrix} (ha : SameOrEmpty a a')
    (hb : b.isEmpty = true) : Agree (f a b) (.ok a') := by
  cases hae : a.isEmpty
  · rw [hf.right a b hae hb]
    exact ha
  · rw [hf.left a b hae]
    exact .inr ⟨hb, ha.isEmpty_eq ▸ hae⟩

/-- A join of operands that are the same or both empty agrees. -/
theorem SkipsEmpty.agree (hf : SkipsEmpty f) {a a' b b' : Matrix} (ha : SameOrEmpty a a')
    (hb : SameOrEmpty b b') : Agree (f a b) (f a' b') := by
  rcases ha with rfl | ⟨ha, ha'⟩
  · rcases hb with rfl | ⟨hb, hb'⟩
    · exact Agree.refl _
    · -- both second operands are empty: the first is kept, or the second when it is empty too
      cases hae : a.isEmpty
      · rw [hf.right a b hae hb, hf.right a b' hae hb']
        exact Agree.refl _
      · rw [hf.left a b hae, hf.left a b' hae]
        exact .inr ⟨hb, hb'⟩
  · rw [hf.left a b ha, hf.left a' b' ha']
    exact hb

end Skips

/-- Leaving the empty elements out of a row joins it to the same matrix, up to an empty shape. -/
theorem foldlM_hcat_filter : ∀ (row : List Matrix) (acc acc' : Matrix), SameOrEmpty acc acc' →
    Agree (row.foldlM Linalg.hcat acc) ((row.filter fun m => !m.isEmpty).foldlM Linalg.hcat acc')
  | [], _, _, h => h
  | m :: rest, acc, acc', h => by
    have ih := foldlM_hcat_filter rest
    rw [List.foldlM_cons, List.filter_cons]
    cases hm : m.isEmpty
    · -- a non-empty element is joined on both sides
      simp only [Bool.not_false, ↓reduceIte, List.foldlM_cons]
      exact (skipsEmpty_hcat.agree h (.refl m)).bind ih
    · -- an empty element is joined on one side only
      simp only [Bool.not_true, Bool.false_eq_true, ↓reduceIte]
      exact (skipsEmpty_hcat.skip h hm).bind (g := fun b => (rest.filter fun m => !m.isEmpty).foldlM
        Linalg.hcat b) ih

theorem joinRow_filter (row : List Matrix) :
    Agree (joinRow row) (joinRow (row.filter fun m => !m.isEmpty)) :=
  foldlM_hcat_filter row _ _ (.refl _)

/-- Leaving the empty elements out of a grid, and the rows left with none, stacks it to the
same matrix, up to an empty shape. -/
theorem foldlM_stack_prune : ∀ (grid : List (List Matrix)) (acc acc' : Matrix), SameOrEmpty acc acc' →
    Agree (grid.foldlM stackRow acc) ((prune grid).foldlM stackRow acc')
  | [], _, _, h => h
  | row :: rest, acc, acc', h => by
    have ih := foldlM_stack_prune rest
    rw [List.foldlM_cons]
    unfold prune
    rw [List.map_cons, List.filter_cons]
    cases hr : (row.filter fun m => !m.isEmpty).isEmpty
    · -- the row keeps an element: both sides stack it
      simp only [Bool.not_false, ↓reduceIte, List.foldlM_cons]
      exact ((joinRow_filter row).bind fun J J' hJ => skipsEmpty_vcat.agree h hJ).bind ih
    · -- the row has no element left: its join is empty, and stacking it keeps the rows before
      simp only [Bool.not_true, Bool.false_eq_true, ↓reduceIte]
      have hjoin := joinRow_filter row
      rw [List.isEmpty_iff.1 hr] at hjoin
      cases hj : joinRow row with
      | error e =>
        rw [hj] at hjoin
        exact (hjoin : False).elim
      | ok J =>
        rw [hj] at hjoin
        have hJ : J.isEmpty = true := (hjoin : SameOrEmpty J Matrix.empty).isEmpty_eq.trans rfl
        have hstack : stackRow acc row = Linalg.vcat acc J := by rw [stackRow, hj]; rfl
        rw [hstack]
        exact (skipsEmpty_vcat.skip h hJ).bind (g := fun b => (prune rest).foldlM stackRow b) ih

/-- **Empty elements contribute nothing.** A literal and the literal without its empty
elements, and without the rows this leaves empty, fail alike, or give the same matrix, or both
give empty matrices. -/
theorem blockMatrix_prune (grid : List (List Matrix)) : Agree (blockMatrix grid) (blockMatrix (prune grid)) :=
  foldlM_stack_prune grid _ _ (.refl _)

/-- What is left of a grid holds non-empty elements in non-empty rows. -/
theorem prune_rows (grid : List (List Matrix)) :
    ∀ row ∈ prune grid, row ≠ [] ∧ ∀ m ∈ row, m.isEmpty = false := by
  intro row h
  simp only [prune, List.mem_filter, List.mem_map] at h
  obtain ⟨⟨row0, -, rfl⟩, hne⟩ := h
  refine ⟨fun hnil => ?_, fun m hm => ?_⟩
  · rw [hnil] at hne
    simp at hne
  · simpa using (List.mem_filter.1 hm).2

/-! ## Rows joined side by side -/

/-- A failed join has no matrix: its success is as false as any false statement, and anything
holds of the matrices it gives. -/
theorem no_matrix_of_error {e : EvalError} {P : Prop} (hP : ¬P) (Q : Matrix → Prop) :
    ((∃ r, (.error e : Except EvalError Matrix) = .ok r) ↔ P) ∧
      ∀ r, (.error e : Except EvalError Matrix) = .ok r → Q r := by
  refine ⟨iff_of_false (fun hex => ?_) hP, fun r h => ?_⟩
  · obtain ⟨r, h⟩ := hex
    cases h
  · cases h

theorem height_pos {row : List Matrix} (hrow : row ≠ []) (hne : ∀ m ∈ row, m.isEmpty = false) :
    0 < height row := by
  obtain ⟨m, rest, rfl⟩ := List.exists_cons_of_ne_nil hrow
  exact (Matrix.rows_pos_of_isEmpty (hne m List.mem_cons_self)).1

theorem width_pos {row : List Matrix} (hrow : row ≠ []) (hne : ∀ m ∈ row, m.isEmpty = false) :
    0 < width row := by
  obtain ⟨m, rest, rfl⟩ := List.exists_cons_of_ne_nil hrow
  have := (Matrix.rows_pos_of_isEmpty (hne m List.mem_cons_self)).2
  simp only [width, List.map_cons, List.sum_cons]
  omega

/-- A single element is its row joined. -/
theorem joined_single (m : Matrix) : Joined [m] m where
  heights := by simp [height]
  rows := rfl
  cols := by simp [width]
  complex := by simp
  entry := by
    intro j m' h i _ c _
    cases j with
    | zero =>
      simp only [List.getElem?_cons_zero, Option.some.injEq] at h
      subst h
      simp [colOffset, width]
    | succ j => simp at h

/-- **One more element joined.** A non-empty element of the row's height, joined to the right
of the non-empty row so far below `2^64` entries, sits at the row's width. -/
theorem Joined.hcat {p : List Matrix} {acc m r : Matrix} (hp : p ≠ []) (hacc : Joined p acc)
    (hm : m.rows = height p) (haccne : acc.isEmpty = false) (hmne : m.isEmpty = false)
    (hbound : acc.rows * (acc.cols + m.cols) < Word.modulus) (hr : Linalg.hcat acc m = .ok r) :
    Joined (p ++ [m]) r := by
  obtain ⟨r', hr', hrows, hcols, hcomplex, hleft, hright⟩ :=
    Linalg.hcat_blocks haccne hmne (hm.trans hacc.rows.symm) hbound
  rw [hr] at hr'
  cases hr'
  have hheight : height (p ++ [m]) = height p := height_append hp _
  refine ⟨fun m' hm' => ?_, by rw [hheight, hrows, hacc.rows], ?_, ?_, ?_⟩
  · rw [hheight]
    rcases List.mem_append.1 hm' with h | h
    · exact hacc.heights m' h
    · rw [List.mem_singleton.1 h]
      exact hm
  · rw [hcols, hacc.cols, width_append]
    simp [width]
  · rw [hcomplex, hacc.complex]
    simp
  · intro j m' hj i hi c hc
    rcases getElem?_concat hj with ⟨hjlt, hj'⟩ | ⟨rfl, rfl⟩
    · -- an element of the row so far keeps its place
      have hi' : i < acc.rows := by
        rw [hacc.rows, ← hacc.heights m' (List.mem_of_getElem? hj')]
        exact hi
      have hc' : colOffset p j + c < acc.cols := by
        rw [hacc.cols]
        exact colOffset_add_lt hj' hc
      rw [colOffset_append_of_le hjlt.le, hleft i hi' _ hc']
      exact hacc.entry j m' hj' i hi c hc
    · -- the new element sits after the row so far
      rw [colOffset_append_of_le le_rfl, colOffset_length, ← hacc.cols]
      exact hright i (by rw [hacc.rows, ← hm]; exact hi) c hc

/-- The row so far is a non-empty matrix. -/
theorem Joined.isEmpty_eq_false {p : List Matrix} {acc : Matrix} (hacc : Joined p acc) (hp : p ≠ [])
    (hne : ∀ m ∈ p, m.isEmpty = false) (hbound : height p * width p < Word.modulus) :
    acc.isEmpty = false := by
  rw [Matrix.isEmpty_eq_false_iff (by rw [hacc.rows, hacc.cols]; exact hbound), hacc.rows, hacc.cols]
  exact ⟨height_pos hp hne, width_pos hp hne⟩

/-- Joining the rest of a row onto the row so far: it succeeds exactly when every further
element has the row's height, and then holds the whole row joined. By induction over the rest,
one `Joined.hcat` step per element. -/
theorem foldlM_hcat_joined : ∀ (rest p : List Matrix) (acc : Matrix), p ≠ [] → Joined p acc →
    (∀ m ∈ p ++ rest, m.isEmpty = false) → height p * width (p ++ rest) < Word.modulus →
    ((∃ r, rest.foldlM Linalg.hcat acc = .ok r) ↔ ∀ m ∈ rest, m.rows = height p) ∧
      ∀ r, rest.foldlM Linalg.hcat acc = .ok r → Joined (p ++ rest) r
  | [], p, acc, _, hacc, _, _ =>
    ⟨iff_of_true ⟨acc, rfl⟩ fun _ h => absurd h List.not_mem_nil, fun r h => by
      cases h
      simpa using hacc⟩
  | m :: rest, p, acc, hp, hacc, hne, hbound => by
    have hpne : ∀ m' ∈ p, m'.isEmpty = false := fun m' h => hne m' (List.mem_append_left _ h)
    have hmne : m.isEmpty = false := hne m (by simp)
    have hwidth : width p + m.cols ≤ width (p ++ m :: rest) := by
      rw [width_append]
      simp [width]
    have haccne : acc.isEmpty = false := hacc.isEmpty_eq_false hp hpne
      (lt_of_le_of_lt (Nat.mul_le_mul_left _ (by omega)) hbound)
    by_cases hm : m.rows = height p
    · -- an element of the row's height is joined to its right
      have hb : acc.rows * (acc.cols + m.cols) < Word.modulus := by
        rw [hacc.rows, hacc.cols]
        exact lt_of_le_of_lt (Nat.mul_le_mul_left _ hwidth) hbound
      obtain ⟨r1, hr1, -⟩ := Linalg.hcat_blocks haccne hmne (hm.trans hacc.rows.symm) hb
      have ih := foldlM_hcat_joined rest (p ++ [m]) r1 (by simp) (hacc.hcat hp hm haccne hmne hb hr1)
        (by simpa using hne) (by rwa [height_append hp, List.append_assoc, List.singleton_append])
      rw [height_append hp, List.append_assoc, List.singleton_append] at ih
      have hfold : (m :: rest).foldlM Linalg.hcat acc = rest.foldlM Linalg.hcat r1 := by
        rw [List.foldlM_cons, hr1]
        rfl
      rw [hfold]
      refine ⟨?_, ih.2⟩
      rw [ih.1]
      simp [hm]
    · -- an element of another height stops the row
      have hfold : (m :: rest).foldlM Linalg.hcat acc =
          .error (Fault.nonConformable "~" acc.shape m.shape : EvalError) := by
        rw [List.foldlM_cons, Linalg.hcat_of_rows_ne haccne hmne (by rw [hacc.rows]; exact Ne.symm hm)]
        rfl
      rw [hfold]
      exact no_matrix_of_error (fun h => hm (h m (by simp))) _

/-- **A row of non-empty elements joins exactly when they share its height**, and then into the
row joined. -/
theorem joinRow_joined {row : List Matrix} (hrow : row ≠ []) (hne : ∀ m ∈ row, m.isEmpty = false)
    (hbound : height row * width row < Word.modulus) :
    ((∃ r, joinRow row = .ok r) ↔ ∀ m ∈ row, m.rows = height row) ∧
      ∀ r, joinRow row = .ok r → Joined row r := by
  obtain ⟨m, rest, rfl⟩ := List.exists_cons_of_ne_nil hrow
  have h := foldlM_hcat_joined rest [m] m (by simp) (joined_single m) (by simpa using hne) hbound
  have hfold : joinRow (m :: rest) = rest.foldlM Linalg.hcat m := by
    rw [joinRow, List.foldlM_cons, Linalg.hcat_of_isEmpty_left m Matrix.isEmpty_empty]
    rfl
  rw [hfold]
  refine ⟨?_, h.2⟩
  rw [h.1]
  simp [height]

/-! ## Rows stacked -/

/-- A row that does not join makes every grid that holds it not conformable. -/
theorem not_conformable_of_joinRow {grid : List (List Matrix)} {row : List Matrix} (hmem : row ∈ grid)
    (hjoin : (∃ r, joinRow row = .ok r) ↔ ∀ m ∈ row, m.rows = height row) {e : EvalError}
    (hj : joinRow row = .error e) : ¬Conformable grid := by
  intro hc
  obtain ⟨r, hr⟩ := hjoin.2 (hc.1 row hmem)
  rw [hj] at hr
  cases hr

/-- A joined row is a grid of one row. -/
theorem Joined.blocks {row : List Matrix} {J : Matrix} (h : Joined row J) : Blocks [row] J where
  heights := by simpa using h.heights
  rows := by simpa using h.rows
  cols := by simpa using h.cols
  complex := by simpa using h.complex
  entry := by
    intro i row' hi j m hj i' hi' c hc
    cases i with
    | zero =>
      simp only [List.getElem?_cons_zero, Option.some.injEq] at hi
      subst hi
      simpa [rowOffset] using h.entry j m hj i' hi' c hc
    | succ i => simp at hi

/-- **One more row stacked.** A joined row of the width of the non-empty grid so far, stacked
under it below `2^64` entries, sits at the grid's height. -/
theorem Blocks.vcat {p : List (List Matrix)} {row : List Matrix} {acc J r : Matrix}
    (hacc : Blocks p acc) (hJ : Joined row J) (hw : J.cols = acc.cols) (haccne : acc.isEmpty = false)
    (hJne : J.isEmpty = false) (hbound : (acc.rows + J.rows) * acc.cols < Word.modulus)
    (hr : Linalg.vcat acc J = .ok r) : Blocks (p ++ [row]) r := by
  obtain ⟨r', hr', hrows, hcols, hcomplex, htop, hbottom⟩ := Linalg.vcat_blocks haccne hJne hw hbound
  rw [hr] at hr'
  cases hr'
  refine ⟨fun row' hrow' m hm => ?_, ?_, fun row' hrow' => ?_, ?_, ?_⟩
  · rcases List.mem_append.1 hrow' with h | h
    · exact hacc.heights row' h m hm
    · rw [List.mem_singleton.1 h] at hm ⊢
      exact hJ.heights m hm
  · rw [hrows, hacc.rows, hJ.rows]
    simp
  · rcases List.mem_append.1 hrow' with h | h
    · rw [hcols]
      exact hacc.cols row' h
    · rw [List.mem_singleton.1 h, hcols, ← hw, hJ.cols]
  · rw [hcomplex, hacc.complex, hJ.complex]
    simp
  · intro i row' hi j m hj i' hi' c hc
    rcases getElem?_concat hi with ⟨hilt, hi''⟩ | ⟨rfl, rfl⟩
    · -- a block of the rows so far keeps its place
      have hrow' := List.mem_of_getElem? hi''
      have hheight : m.rows = height row' := hacc.heights row' hrow' m (List.mem_of_getElem? hj)
      have hrow_lt : rowOffset p i + i' < acc.rows := by
        rw [hacc.rows]
        exact rowOffset_add_lt hi'' (hheight ▸ hi')
      have hcol_lt : colOffset row' j + c < acc.cols := by
        rw [hacc.cols row' hrow']
        exact colOffset_add_lt hj hc
      rw [rowOffset_append_of_le hilt.le, htop _ hrow_lt _ hcol_lt]
      exact hacc.entry i row' hi'' j m hj i' hi' c hc
    · -- a block of the new row sits below them
      have hheight : m.rows = height row' := hJ.heights m (List.mem_of_getElem? hj)
      have hcol_lt : colOffset row' j + c < acc.cols := by
        rw [← hw, hJ.cols]
        exact colOffset_add_lt hj hc
      rw [rowOffset_append_of_le le_rfl, rowOffset_length, ← hacc.rows,
        hbottom i' (by rw [hJ.rows, ← hheight]; exact hi') _ hcol_lt]
      exact hJ.entry j m hj i' hi' c hc

/-- The grid so far is a non-empty matrix. -/
theorem Blocks.isEmpty_eq_false {p : List (List Matrix)} {acc : Matrix} (hacc : Blocks p acc)
    {row : List Matrix} (hrow : row ∈ p) (hne : row ≠ [] ∧ ∀ m ∈ row, m.isEmpty = false)
    (hbound : acc.rows * acc.cols < Word.modulus) : acc.isEmpty = false := by
  rw [Matrix.isEmpty_eq_false_iff hbound, hacc.rows, hacc.cols row hrow]
  exact ⟨lt_of_lt_of_le (height_pos hne.1 hne.2) (List.le_sum_of_mem (List.mem_map_of_mem hrow)),
    width_pos hne.1 hne.2⟩

/-- A grid held as blocks has the elements and rows of a conformable grid. -/
theorem Blocks.conformable {p : List (List Matrix)} {acc : Matrix} (hacc : Blocks p acc) :
    Conformable p :=
  ⟨hacc.heights, fun row h row' h' => (hacc.cols row h).symm.trans (hacc.cols row' h')⟩

/-- Stacking the rest of a grid under the grid so far: it succeeds exactly when the whole grid
is conformable, and then holds it as blocks. By induction over the rest, one joined row and one
`Blocks.vcat` step per row. -/
theorem foldlM_stack_blocks : ∀ (rest p : List (List Matrix)) (acc : Matrix), p ≠ [] → Blocks p acc →
    (∀ row ∈ p ++ rest, row ≠ [] ∧ ∀ m ∈ row, m.isEmpty = false) →
    totalRows (p ++ rest) * totalCols (p ++ rest) < Word.modulus →
    ((∃ r, rest.foldlM stackRow acc = .ok r) ↔ Conformable (p ++ rest)) ∧
      ∀ r, rest.foldlM stackRow acc = .ok r → Blocks (p ++ rest) r
  | [], p, acc, _, hacc, _, _ =>
    ⟨iff_of_true ⟨acc, rfl⟩ (by simpa using hacc.conformable), fun r h => by
      cases h
      simpa using hacc⟩
  | row :: rest, p, acc, hp, hacc, hrows, hbound => by
    obtain ⟨row0, hrow0⟩ := List.exists_mem_of_ne_nil p hp
    obtain ⟨hrow, hne⟩ := hrows row (by simp)
    -- every count below is bounded by all the rows times all the columns
    have hrow_le : height row ≤ totalRows (p ++ row :: rest) := height_le_totalRows (by simp)
    have hwidth_le : ∀ row' ∈ p ++ row :: rest, width row' ≤ totalCols (p ++ row :: rest) :=
      fun row' h => width_le_totalCols h
    have hheights_le : (p.map height).sum + height row ≤ totalRows (p ++ row :: rest) := by
      have h1 := sum_height_le (p ++ [row])
      have h2 : totalRows (p ++ [row]) ≤ totalRows (p ++ row :: rest) := by
        rw [totalRows_append, totalRows_append]
        simp [totalRows]
      simp only [List.map_append, List.map_cons, List.map_nil, List.sum_append, List.sum_cons,
        List.sum_nil, Nat.add_zero] at h1
      omega
    have hjb : height row * width row < Word.modulus :=
      lt_of_le_of_lt (Nat.mul_le_mul hrow_le (hwidth_le row (by simp))) hbound
    have hjoin := joinRow_joined hrow hne hjb
    have haccb : acc.rows * acc.cols < Word.modulus := by
      rw [hacc.rows, hacc.cols row0 hrow0]
      exact lt_of_le_of_lt (Nat.mul_le_mul (by omega) (hwidth_le row0 (by simp [hrow0]))) hbound
    have haccne := hacc.isEmpty_eq_false hrow0 (hrows row0 (by simp [hrow0])) haccb
    cases hj : joinRow row with
    | error e =>
      -- the row's elements have different heights
      have hfold : (row :: rest).foldlM stackRow acc = .error e := by
        rw [List.foldlM_cons, stackRow, hj]
        rfl
      rw [hfold]
      exact no_matrix_of_error (not_conformable_of_joinRow (by simp) hjoin.1 hj) _
    | ok J =>
      have hJ := hjoin.2 J hj
      have hJne : J.isEmpty = false := hJ.isEmpty_eq_false hrow hne hjb
      by_cases hw : J.cols = acc.cols
      · -- the row has the width of the rows so far: it is stacked under them
        have hb : (acc.rows + J.rows) * acc.cols < Word.modulus := by
          rw [hacc.rows, hJ.rows, hacc.cols row0 hrow0]
          exact lt_of_le_of_lt (Nat.mul_le_mul hheights_le (hwidth_le row0 (by simp [hrow0]))) hbound
        obtain ⟨r1, hr1, -⟩ := Linalg.vcat_blocks haccne hJne hw hb
        have ih := foldlM_stack_blocks rest (p ++ [row]) r1 (by simp) (hacc.vcat hJ hw haccne hJne hb hr1)
          (by simpa using hrows) (by simpa using hbound)
        simp only [List.append_assoc, List.singleton_append] at ih
        have hfold : (row :: rest).foldlM stackRow acc = rest.foldlM stackRow r1 := by
          rw [List.foldlM_cons, stackRow, hj]
          exact congrArg (· >>= fun acc => rest.foldlM stackRow acc) hr1
        rw [hfold]
        exact ih
      · -- a row of another width stops the literal
        have hfold : (row :: rest).foldlM stackRow acc =
            .error (Fault.nonConformable "|" acc.shape J.shape : EvalError) := by
          rw [List.foldlM_cons, stackRow, hj]
          exact congrArg (· >>= fun acc => rest.foldlM stackRow acc)
            (Linalg.vcat_of_cols_ne haccne hJne (Ne.symm hw))
        rw [hfold]
        refine no_matrix_of_error (fun hc => hw ?_) _
        rw [hJ.cols, hacc.cols row0 hrow0]
        exact hc.2 row (by simp) row0 (by simp [hrow0])

/-- **A grid of non-empty elements in non-empty rows makes a literal exactly when it is
conformable**, and then the literal holds it as blocks, below `2^64` entries in all. -/
theorem blockMatrix_blocks {grid : List (List Matrix)}
    (hrows : ∀ row ∈ grid, row ≠ [] ∧ ∀ m ∈ row, m.isEmpty = false)
    (hbound : totalRows grid * totalCols grid < Word.modulus) :
    ((∃ r, blockMatrix grid = .ok r) ↔ Conformable grid) ∧
      ∀ r, blockMatrix grid = .ok r → Blocks grid r := by
  cases grid with
  | nil =>
    refine ⟨iff_of_true ⟨_, rfl⟩ ⟨by simp, by simp⟩, fun r h => ?_⟩
    cases h
    exact ⟨by simp, rfl, by simp, rfl, by simp⟩
  | cons row rest =>
    obtain ⟨hrow, hne⟩ := hrows row (by simp)
    have hjb : height row * width row < Word.modulus :=
      lt_of_le_of_lt (Nat.mul_le_mul (height_le_totalRows (by simp)) (width_le_totalCols (by simp))) hbound
    have hjoin := joinRow_joined hrow hne hjb
    cases hj : joinRow row with
    | error e =>
      have hfold : blockMatrix (row :: rest) = .error e := by
        rw [blockMatrix, List.foldlM_cons, stackRow, hj]
        rfl
      rw [hfold]
      exact no_matrix_of_error (not_conformable_of_joinRow List.mem_cons_self hjoin.1 hj) _
    | ok J =>
      -- the first row is stacked under the empty matrix, which gives the row itself
      have hfold : blockMatrix (row :: rest) = rest.foldlM stackRow J := by
        rw [blockMatrix, List.foldlM_cons, stackRow, hj]
        exact congrArg (· >>= fun acc => rest.foldlM stackRow acc) (Linalg.vcat_of_isEmpty_left J Matrix.isEmpty_empty)
      rw [hfold]
      simpa using foldlM_stack_blocks rest [row] J (by simp) (hjoin.2 J hj).blocks (by simpa using hrows)
        (by simpa using hbound)

end Literal

/-! ## The operator of a literal -/

section Operator

open Scratch Literal Walk

/-- An element read as a matrix is joined to the right of the row so far; the flag records a
series. Nothing is written to the cell. -/
theorem exec_literalElement {env : OpEnv} {id : Nat} {o : Operand} {m : Matrix}
    (hread : env.read id = .ok o) (hview : asMatrix? o env.ds = .ok (some m)) (acc : Matrix) (b : Bool)
    (s : Scratch) :
    exec (literalElement env (acc, b) id) s = ((Linalg.hcat acc m).map (·, b || o.value.isSeries), s) := by
  unfold literalElement
  simp only [exec_bind, OpM.read, exec_lift, hread, exec_liftFault, hview, Except.mapError]
  cases Linalg.hcat acc m with
  | error e => rfl
  | ok r =>
    -- the literal's own test for a series is `Value.isSeries`
    cases o.value <;> rfl

/-- A fold of operator steps, each running one step of a fold of matrices and raising the flag
of its operand, runs the whole fold of matrices and raises the flag of any operand. By induction
along the operands read. -/
theorem exec_foldlM_flagged {α β γ : Type} {step : Matrix × Bool → α → OpM (Matrix × Bool)}
    {g : Matrix → γ → Except EvalError Matrix} {flag : β → Bool} {R : α → β → Prop}
    {V : β → γ → Prop}
    (hstep : ∀ {x y z}, R x y → V y z → ∀ (acc : Matrix) (b : Bool) (s : Scratch),
      exec (step (acc, b) x) s = ((g acc z).map (·, b || flag y), s))
    {xs : List α} {ys : List β} (hR : List.Forall₂ R xs ys) :
    ∀ {zs : List γ}, List.Forall₂ V ys zs → ∀ (acc : Matrix) (b : Bool) (s : Scratch),
      exec (xs.foldlM step (acc, b)) s = ((zs.foldlM g acc).map (·, b || ys.any flag), s) := by
  induction hR with
  | nil =>
    intro zs hV acc b s
    cases hV
    simp only [List.any_nil, Bool.or_false]
    rfl
  | cons hr _ ih =>
    intro zs hV acc b s
    cases hV with
    | cons hv hvs =>
      rw [List.foldlM_cons, exec_bind, hstep hr hv, List.foldlM_cons]
      cases g acc _ with
      | error e => rfl
      | ok r =>
        simp only [Except.map]
        rw [ih hvs r _ s, except_ok_bind, List.any_cons, Bool.or_assoc]
        rfl

/-- A row of elements read as matrices joins as `joinRow` does, from any matrix so far. -/
theorem exec_foldlM_literalElement {env : OpEnv} {ids : List Nat} {os : List Operand}
    (hread : List.Forall₂ (fun id o => env.read id = .ok o) ids os) {ms : List Matrix}
    (hview : List.Forall₂ (fun o m => asMatrix? o env.ds = .ok (some m)) os ms) (acc : Matrix)
    (b : Bool) (s : Scratch) :
    exec (ids.foldlM (literalElement env) (acc, b)) s =
      ((ms.foldlM Linalg.hcat acc).map (·, b || os.any (·.value.isSeries)), s) :=
  exec_foldlM_flagged (fun hr hv => exec_literalElement hr hv) hread hview acc b s

/-- A row of elements is joined and stacked under the matrix so far, as `stackRow` does it. -/
theorem exec_literalRow {env : OpEnv} {row : List Nat} {os : List Operand} {ms : List Matrix}
    (hread : List.Forall₂ (fun id o => env.read id = .ok o) row os)
    (hview : List.Forall₂ (fun o m => asMatrix? o env.ds = .ok (some m)) os ms) (acc : Matrix) (b : Bool)
    (s : Scratch) :
    exec (literalRow env (acc, b) row) s = ((stackRow acc ms).map (·, b || os.any (·.value.isSeries)), s) := by
  unfold literalRow stackRow joinRow
  rw [exec_bind, exec_foldlM_literalElement hread hview]
  cases List.foldlM Linalg.hcat Matrix.empty ms with
  | error e => rfl
  | ok J =>
    simp only [Except.map]
    rw [exec_bind, exec_lift, except_ok_bind]
    cases Linalg.vcat acc J <;> rfl

/-- The rows of a literal are joined and stacked as `blockMatrix` does it, from any matrix so
far. -/
theorem exec_foldlM_literalRow {env : OpEnv} {grid : List (List Nat)} {os : List (List Operand)}
    (hread : List.Forall₂ (List.Forall₂ fun id o => env.read id = .ok o) grid os)
    {ms : List (List Matrix)}
    (hview : List.Forall₂ (List.Forall₂ fun o m => asMatrix? o env.ds = .ok (some m)) os ms)
    (acc : Matrix) (b : Bool) (s : Scratch) :
    exec (grid.foldlM (literalRow env) (acc, b)) s =
      ((ms.foldlM stackRow acc).map (·, b || os.any fun row => row.any (·.value.isSeries)), s) :=
  exec_foldlM_flagged (fun hr hv => exec_literalRow hr hv) hread hview acc b s

/-- **A literal's operator builds `blockMatrix` of its elements.** When every element reads an
operand whose matrix view exists, the operator puts the block matrix of the views in the cell,
spanning the sample when an element is a series, or fails as the block matrix does and leaves
the cell as it was. -/
theorem exec_matrixLiteralOp {env : OpEnv} {grid : List (List Nat)} {os : List (List Operand)}
    {ms : List (List Matrix)} (hread : List.Forall₂ (List.Forall₂ fun id o => env.read id = .ok o) grid os)
    (hview : List.Forall₂ (List.Forall₂ fun o m => asMatrix? o env.ds = .ok (some m)) os ms) (s : Scratch) :
    (∀ r, blockMatrix ms = .ok r → exec (matrixLiteralOp grid env) s =
      (.ok (), { s with cell := .matrix (if os.any (fun row => row.any (·.value.isSeries)) then
        { r with span := some ⟨env.ds.t1, env.ds.t2⟩ } else r) })) ∧
    (∀ e, blockMatrix ms = .error e → exec (matrixLiteralOp grid env) s = (.error e, s)) := by
  unfold matrixLiteralOp
  rw [exec_bind, exec_foldlM_literalRow hread hview]
  refine ⟨fun r hr => ?_, fun e he => ?_⟩
  · -- the stacked grid, with the sample as span when an element is a series
    rw [show List.foldlM stackRow Matrix.empty ms = .ok r from hr]
    simp only [Except.map, Bool.false_or]
    rfl
  · rw [show List.foldlM stackRow Matrix.empty ms = .error e from he]
    rfl

/-- **Matrix literals are block matrices.** The operator of a literal whose elements read as
matrices (a scalar as `1 × 1`, a series as the column of its sample) builds `blockMatrix` of
them, spanning the sample when an element is a series, or fails as it does with the cell left
alone. Leaving out the empty elements, and the rows left with none, gives a grid of non-empty
elements in non-empty rows and the same result, except that an empty result may take another
empty shape. For such a grid, below `2^64` entries in all, the literal succeeds exactly when the
elements of each row share its height and all rows have one width, and then it has the rows'
heights and that width, holds each element at its row and column offsets, and is complex
exactly when an element is. -/
theorem matrix_literals_are_block_matrices :
    (∀ (env : OpEnv) (grid : List (List Nat)) (os : List (List Operand)) (ms : List (List Matrix))
      (s : Scratch),
      List.Forall₂ (List.Forall₂ fun id o => env.read id = .ok o) grid os →
      List.Forall₂ (List.Forall₂ fun o m => asMatrix? o env.ds = .ok (some m)) os ms →
      (∀ r, blockMatrix ms = .ok r → exec (matrixLiteralOp grid env) s =
        (.ok (), { s with cell := .matrix (if os.any (fun row => row.any (·.value.isSeries)) then
          { r with span := some ⟨env.ds.t1, env.ds.t2⟩ } else r) })) ∧
      (∀ e, blockMatrix ms = .error e → exec (matrixLiteralOp grid env) s = (.error e, s))) ∧
    (∀ ms : List (List Matrix),
      (∀ row ∈ prune ms, row ≠ [] ∧ ∀ m ∈ row, m.isEmpty = false) ∧
      (blockMatrix ms = blockMatrix (prune ms) ∨
        ∃ r r', blockMatrix ms = .ok r ∧ blockMatrix (prune ms) = .ok r' ∧
          r.isEmpty = true ∧ r'.isEmpty = true)) ∧
    (∀ ms : List (List Matrix), (∀ row ∈ ms, row ≠ [] ∧ ∀ m ∈ row, m.isEmpty = false) →
      totalRows ms * totalCols ms < Word.modulus →
      ((∃ r, blockMatrix ms = .ok r) ↔ Conformable ms) ∧ ∀ r, blockMatrix ms = .ok r → Blocks ms r) :=
  ⟨fun _ _ _ _ s hread hview => exec_matrixLiteralOp hread hview s,
    fun ms => ⟨prune_rows ms, agree_iff.1 (blockMatrix_prune ms)⟩,
    fun _ hrows hbound => blockMatrix_blocks hrows hbound⟩

/-- A literal of the scalar `5` reads it as a `1 × 1` matrix; the literal `{1, 2; row}` of two
scalars over a row `(3, 4)` holds the row's second entry at `(1, 1)`. -/
theorem literal_blocks_of_scalars_and_row :
    exec (matrixLiteralOp [[0]] ⟨Dataset.create 0, .any,
        fun _ => .ok { value := .scalar 5 }⟩) default =
      (.ok (), { (default : Scratch) with cell := .matrix (Matrix.ofScalar 5) }) ∧
    ∃ r, blockMatrix [[Matrix.ofScalar 1, Matrix.ofScalar 2], [Matrix.row #[3, 4]]] = .ok r ∧
      r.getComplex 1 1 = (Matrix.row #[3, 4]).getComplex 0 1 := by
  have h := matrix_literals_are_block_matrices
  have hop := (h.1 ⟨Dataset.create 0, .any, fun _ => .ok { value := .scalar 5 }⟩
    [[0]] [[{ value := .scalar 5 }]] [[Matrix.ofScalar 5]] default (.cons (.cons rfl .nil) .nil)
    (.cons (.cons rfl .nil) .nil)).1 (Matrix.ofScalar 5) rfl
  have hgrid := h.2.2 [[Matrix.ofScalar 1, Matrix.ofScalar 2], [Matrix.row #[3, 4]]]
    (by decide) (by decide)
  obtain ⟨r, hr⟩ := hgrid.1.2 (by decide)
  refine ⟨hop, r, hr, ?_⟩
  exact (hgrid.2 r hr).entry 1 [Matrix.row #[3, 4]] rfl 0 (Matrix.row #[3, 4]) rfl 0 (by decide) 1 (by decide)

/-- A literal of one empty `2 × 0` element is that element, while the literal left once it is
removed is the `0 × 0` matrix: leaving out an empty element can change the shape. -/
theorem empty_element_keeps_its_shape :
    exec (matrixLiteralOp [[0]] ⟨Dataset.create 0, .any,
        fun _ => .ok { value := .matrix (Matrix.zeros 2 0) }⟩) default =
      (.ok (), { (default : Scratch) with cell := .matrix (Matrix.zeros 2 0) }) ∧
    exec (matrixLiteralOp [[]] ⟨Dataset.create 0, .any,
        fun _ => .ok { value := .matrix (Matrix.zeros 2 0) }⟩) default =
      (.ok (), { (default : Scratch) with cell := .matrix Matrix.empty }) ∧
    (Matrix.zeros 2 0).shape ≠ Matrix.empty.shape :=
  ⟨rfl, rfl, by decide⟩

end Operator

end SeriesCalc
