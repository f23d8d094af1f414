import Mathlib
import SeriesCalc.Proofs.SeriesConditional

/-!
# Conversions that undo each other

An assignment brings a value to its declared type (`convert`). Where the conversion table pairs
two types, going there and back gives the value again, on a well-formed dataset:

* a scalar becomes a `1 × 1` matrix, and that matrix becomes the scalar (`scalar_matrix_scalar`);
* a series of one value per observation becomes the column of its sample, remembering the
  sample as its span (`convert_series_matrix`), and that column becomes the series over the
  sample, NA elsewhere (`series_matrix_series`, with `Dataset.onSample` the series cut to the
  sample);
* a real column as long as the sample becomes a series (`Column.of?_sampleColumn` lines it up
  against the observations), and that series becomes the column again, now with the sample as
  its span (`column_series_matrix`);
* a dataset series becomes the list of its id; a computed series has no id and no list.

The two directions between series and columns meet in `extract_fillSeriesPure_eq`: the sample
part of a series filled over the sample is what it was filled with.
-/

namespace SeriesCalc

namespace Dataset

/-- A series cut to the sample: its values over the sample, NA at every other observation. -/
def onSample (ds : Dataset) (xs : Array Float) : Array Float :=
  Array.ofFn fun t : Fin ds.nobs => if ds.t1 ≤ t.val ∧ t.val ≤ ds.t2 then xs.getD t NA else NA

end Dataset

section Sample

variable {ds : Dataset}

/-- Writing positions one by one keeps the number of values. -/
theorem size_foldl_set (f : Nat → Float) :
    ∀ (l : List Nat) (a : Array Float), (l.foldl (fun acc t => acc.set! t (f t)) a).size = a.size
  | [], _ => rfl
  | t :: l, a => by rw [List.foldl_cons, size_foldl_set f l, Array.size_set!]

/-- A filled series has one value per observation. -/
theorem size_fillSeriesPure (f : Nat → Float) : (fillSeriesPure ds f).size = ds.nobs := by
  rw [fillSeriesPure, size_foldl_set, Array.size_replicate]

/-- The sample part of a series of one value per observation is positions `t1..t2`. -/
theorem sampleValues_of_size (hwf : ds.WellFormed) {xs : Array Float} (hsize : xs.size = ds.nobs) :
    sampleValues ds xs = .ok (xs.extract ds.t1 (ds.t2 + 1)) := by
  unfold sampleValues storedSlice
  rcases Nat.eq_zero_or_pos ds.nobs with hn | hn
  · -- an empty dataset has empty series
    have hxs : xs = #[] := Array.eq_empty_of_size_eq_zero (by omega)
    subst hxs
    simp
  · have hne : xs.isEmpty = false := by
      rw [Array.isEmpty_eq_false_iff]
      intro h
      rw [h] at hsize
      simp at hsize
      omega
    have h2 := (hwf.sample hn).2
    simp only [hne, Bool.false_eq_true, if_false]
    rw [if_neg (by omega)]

/-- That part has one value per observation of the sample. -/
theorem size_extract_sample (hwf : ds.WellFormed) {xs : Array Float} (hsize : xs.size = ds.nobs) :
    (xs.extract ds.t1 (ds.t2 + 1)).size = ds.sampleLen := by
  rw [Array.size_extract, hsize]
  unfold Dataset.sampleLen
  rcases Nat.eq_zero_or_pos ds.nobs with hn | hn
  · simp [hn]
  · have hs := hwf.sample hn
    simp only [beq_iff_eq, Nat.ne_of_gt hn, if_false]
    omega

/-- The observations of the sample, counted from `t1`, are the positions below `sampleLen`. -/
theorem mem_sampleRange_iff_lt (hwf : ds.WellFormed) {i : Nat} :
    ds.t1 + i ∈ ds.sampleRange ↔ i < ds.sampleLen := by
  rw [Dataset.mem_sampleRange]
  unfold Dataset.sampleLen
  rcases Nat.eq_zero_or_pos ds.nobs with hn | hn
  · simp [hn]
  · have hs := hwf.sample hn
    simp only [beq_iff_eq, Nat.ne_of_gt hn, if_false, ne_eq, not_false_eq_true, true_and]
    omega

/-- **Filling over the sample, then taking the sample, gives back what was filled in.** A
series filled over the sample from `f`, which reads `xs` position by position from `t1`, has
`xs` as its sample part. -/
theorem extract_fillSeriesPure_eq (hwf : ds.WellFormed) {f : Nat → Float} {xs : Array Float}
    (hsize : xs.size = ds.sampleLen) (hf : ∀ t ∈ ds.sampleRange, f t = xs.getD (t - ds.t1) NA) :
    (fillSeriesPure ds f).extract ds.t1 (ds.t2 + 1) = xs := by
  have hlen : (fillSeriesPure ds f).size = ds.nobs := size_fillSeriesPure f
  refine Array.ext_getElem? fun i => ?_
  rw [Array.getElem?_extract]
  have hslice := size_extract_sample hwf hlen
  rw [Array.size_extract] at hslice
  split
  · rename_i hi
    have hmem : ds.t1 + i ∈ ds.sampleRange := (mem_sampleRange_iff_lt hwf).2 (by omega)
    have hobs : ds.t1 + i < ds.nobs := by
      obtain ⟨hn, -, h2⟩ := Dataset.mem_sampleRange.1 hmem
      have := (hwf.sample (Nat.pos_of_ne_zero hn)).2
      omega
    rw [getElem?_fillSeriesPure, if_pos hobs, if_pos hmem, hf _ hmem, Nat.add_sub_cancel_left,
      Array.getD_eq_getD_getElem?, Array.getElem?_eq_getElem (by omega), Option.getD_some]
  · rename_i hi
    rw [Array.getElem?_eq_none (by omega)]

/-- A series of NA-padded reads filled over the sample is the series cut to the sample. -/
theorem fillSeriesPure_getD (xs : Array Float) :
    fillSeriesPure ds (fun t => xs.getD t NA) = ds.onSample xs := by
  refine Array.ext_getElem? fun t => ?_
  rw [getElem?_fillSeriesPure, Dataset.onSample, Array.getElem?_ofFn]
  by_cases ht : t < ds.nobs
  · have hn : ds.nobs ≠ 0 := by omega
    simp [ht, Dataset.mem_sampleRange, hn]
  · simp [ht]

end Sample

/-! ## Columns of the sample -/

section Column

variable {ds : Dataset}

/-- A real column as long as the sample lines up with the sample: observation `t` reads its
entry `t - t1`. A `1 × 1` column counts as a scalar, which the one observation reads too. -/
theorem Column.of?_sampleColumn {xs : Array Float} (hsize : xs.size = ds.sampleLen)
    (sp : Option Span) :
    ∃ col, Column.of? { value := .matrix { Matrix.column xs with span := sp } } ds = some col ∧
      ∀ t ∈ ds.sampleRange, col.at t = xs.getD (t - ds.t1) NA := by
  by_cases h1 : xs.size = 1
  · refine ⟨.const (xs.getD 0 0), ?_, fun t ht => ?_⟩
    · simp [Column.of?, Operand.scalar?, Value.scalar?, Matrix.column, Matrix.isScalar, Matrix.real?, h1]
    · -- a sample of one observation is `t1` alone
      obtain ⟨hn, h1t, h2t⟩ := Dataset.mem_sampleRange.1 ht
      have hlen : ds.t2 - ds.t1 + 1 = 1 := by
        have := hsize
        simp only [Dataset.sampleLen, beq_iff_eq, hn, if_false] at this
        omega
      have htt : t - ds.t1 = 0 := by omega
      rw [htt]
      simp [Column.at, Array.getD_eq_getD_getElem?, Array.getElem?_eq_getElem (by omega : 0 < xs.size)]
  · have hlen1 : ds.sampleLen ≠ 1 := hsize ▸ h1
    refine ⟨.sample xs ds.t1, ?_, fun t _ => rfl⟩
    simp [Column.of?, Operand.scalar?, Value.scalar?, Matrix.column, Matrix.isScalar, Matrix.real?, hlen1, hsize]

/-- A matrix whose operand lines up as a column converts to the series it fills. -/
theorem convert_series_of_column {m : Matrix} {col : Column}
    (h : Column.of? { value := .matrix m } ds = some col) :
    convert ds { value := .matrix m } .series = .ok (.series (fillSeriesPure ds col.at)) := by
  simp [convert, h]

/-- A series of one value per observation converts to the column of its sample. -/
theorem convert_series_matrix (hwf : ds.WellFormed) {o : Operand} {xs : Array Float}
    (ho : o.value = .series xs) (hsize : xs.size = ds.nobs) :
    convert ds o .matrix =
      .ok (.matrix { Matrix.column (xs.extract ds.t1 (ds.t2 + 1)) with span := some ⟨ds.t1, ds.t2⟩ }) := by
  simp [convert, ho, sampleValues_of_size hwf hsize]

end Column

/-! ## There and back -/

section RoundTrips

variable {ds : Dataset}

/-- A scalar is the element of its `1 × 1` matrix. -/
theorem scalar_matrix_scalar (ds : Dataset) (x : Float) :
    (convert ds { value := .scalar x } .matrix >>= fun v => convert ds { value := v } .scalar) =
      .ok (.scalar x) := rfl

/-- A series goes to the column of its sample and comes back over the sample, NA elsewhere. -/
theorem series_matrix_series (hwf : ds.WellFormed) {o : Operand} {xs : Array Float}
    (ho : o.value = .series xs) (hsize : xs.size = ds.nobs) :
    (convert ds o .matrix >>= fun v => convert ds { value := v } .series) =
      .ok (.series (ds.onSample xs)) := by
  rw [convert_series_matrix hwf ho hsize]
  have hcol := size_extract_sample hwf hsize
  obtain ⟨col, hof, hat⟩ := Column.of?_sampleColumn hcol (some ⟨ds.t1, ds.t2⟩)
  show convert ds { value := .matrix _ } .series = _
  rw [convert_series_of_column hof, ← fillSeriesPure_getD]
  congr 2
  refine fillSeriesPure_congr fun t ht => ?_
  -- the column's entry `t - t1` is the series' value at `t`
  obtain ⟨hn, h1, h2⟩ := Dataset.mem_sampleRange.1 ht
  have hlt : t < xs.size := by
    have := (hwf.sample (Nat.pos_of_ne_zero hn)).2
    omega
  rw [hat t ht, Array.getD_eq_getD_getElem?, Array.getElem?_extract, if_pos (by omega),
    Nat.add_sub_cancel' h1, Array.getD_eq_getD_getElem?]

/-- A real column as long as the sample goes to a series and comes back as itself, with the
sample as its span. -/
theorem column_series_matrix (hwf : ds.WellFormed) {m : Matrix} {xs : Array Float}
    (hcols : m.cols = 1) (hreal : m.entries = .real xs) (hrows : xs.size = m.rows)
    (hlen : m.rows = ds.sampleLen) :
    (convert ds { value := .matrix m } .series >>= fun v => convert ds { value := v } .matrix) =
      .ok (.matrix { m with span := some ⟨ds.t1, ds.t2⟩ }) := by
  -- the column is the column of its entries
  have hm : m = { Matrix.column xs with span := m.span } := by
    obtain ⟨r, c, e, sp⟩ := m
    simp only at hcols hreal hrows
    simp [Matrix.column, hcols, hreal, hrows]
  rw [← hrows] at hlen
  rw [hm]
  obtain ⟨col, hof, hat⟩ := Column.of?_sampleColumn hlen m.span
  rw [convert_series_of_column hof]
  have hfill : (fillSeriesPure ds col.at).size = ds.nobs := size_fillSeriesPure col.at
  show convert ds { value := .series _ } .matrix = _
  rw [convert_series_matrix hwf rfl hfill, extract_fillSeriesPure_eq hwf hlen hat]

end RoundTrips

/-- **Paired conversions undo each other.** On every well-formed dataset: a scalar comes back
from its `1 × 1` matrix; a series of one value per observation becomes the column of its sample
with the sample as span, and that column becomes the series over the sample with NA elsewhere;
a real column as long as the sample becomes a series and then itself again, with the sample as
span (which matrix comparison ignores); a dataset series becomes the list of its id, while a
computed series does not become a list. -/
theorem paired_conversions_invert :
    (∀ (ds : Dataset) (x : Float),
      (convert ds { value := .scalar x } .matrix >>= fun v => convert ds { value := v } .scalar) =
        .ok (.scalar x)) ∧
    (∀ (ds : Dataset) (o : Operand) (xs : Array Float), ds.WellFormed → o.value = .series xs →
      xs.size = ds.nobs →
      convert ds o .matrix =
        .ok (.matrix { Matrix.column (xs.extract ds.t1 (ds.t2 + 1)) with span := some ⟨ds.t1, ds.t2⟩ }) ∧
      (convert ds o .matrix >>= fun v => convert ds { value := v } .series) =
        .ok (.series (ds.onSample xs))) ∧
    (∀ (ds : Dataset) (m : Matrix) (xs : Array Float), ds.WellFormed → m.cols = 1 →
      m.entries = .real xs → xs.size = m.rows → m.rows = ds.sampleLen →
      (convert ds { value := .matrix m } .series >>= fun v => convert ds { value := v } .matrix) =
        .ok (.matrix { m with span := some ⟨ds.t1, ds.t2⟩ })) ∧
    (∀ (ds : Dataset) (xs : Array Float) (sid : Nat) (cats : Option Categories),
      convert ds ⟨.series xs, some sid, cats⟩ .list = .ok (.list [sid])) ∧
    (∀ (ds : Dataset) (xs : Array Float) (cats : Option Categories),
      convert ds ⟨.series xs, none, cats⟩ .list = .error (Fault.typeMismatch "list" .series : EvalError)) :=
  ⟨scalar_matrix_scalar,
    fun _ _ _ hwf ho hsize => ⟨convert_series_matrix hwf ho hsize, series_matrix_series hwf ho hsize⟩,
    fun _ _ _ hwf hcols hreal hrows hlen => column_series_matrix hwf hcols hreal hrows hlen,
    fun _ _ _ _ => rfl, fun _ _ _ => rfl⟩

/-- Four observations with the sample `2..3` (1-based): `x = {1, 2, 3, 4}` becomes the column
`{2; 3}` spanning the sample and comes back as `{NA, 2, 3, NA}`, and the column `{2; 3}` comes
back as itself. -/
theorem sample_column_round_trip :
    ∃ ds : Dataset, (Dataset.create 4).setSample 1 2 = .ok ds ∧ ds.WellFormed ∧
      convert ds { value := .series #[1, 2, 3, 4] } .matrix =
        .ok (.matrix { Matrix.column #[2, 3] with span := some ⟨1, 2⟩ }) ∧
      (convert ds { value := .series #[1, 2, 3, 4] } .matrix >>= fun v => convert ds { value := v } .series) =
        .ok (.series #[NA, 2, 3, NA]) ∧
      (convert ds { value := .matrix (Matrix.column #[2, 3]) } .series >>=
        fun v => convert ds { value := v } .matrix) =
        .ok (.matrix { Matrix.column #[2, 3] with span := some ⟨1, 2⟩ }) := by
  have hs : (Dataset.create 4).setSample 1 2 = .ok { Dataset.create 4 with t1 := 1, t2 := 2 } := rfl
  have hwf := (Dataset.wellFormed_create 4).setSample hs
  have h := paired_conversions_invert
  obtain ⟨hcol, hback⟩ := h.2.1 _ { value := .series #[1, 2, 3, 4] } _ hwf rfl rfl
  exact ⟨_, hs, hwf, hcol, hback, h.2.2.1 _ (Matrix.column #[2, 3]) _ hwf rfl rfl rfl rfl⟩

end SeriesCalc
