import SeriesCalc.Proofs.Values.Counts
import SeriesCalc.Proofs.Values.Operators
import SeriesCalc.Proofs.SeriesWrites
import SeriesCalc.Proofs.Dataset.WellFormed

/-!
# Category codes name their labels

A series with category labels stores, for each observation, the code of its label in a table
of labels (`Categories`): label `i` (from 0) has code `i + 1`, a float. The table is read both
ways, label to code through its index (`Categories.codeOf?`) and code to label through its labels
(`Categories.label?`), and grows only by interning a label (`Categories.intern`).

* `Categories.Agrees`: the index gives each label exactly its position. Interning keeps it
  (`Categories.Agrees.intern`): a new label goes in at the end of the labels and under its
  position in the index. `Categories.Built`, the tables a program makes from a list of labels and
  then by interning one label at a time, all have it (`Categories.Built.agrees`), and with it
  distinct labels (`Categories.Agrees.distinct`).
* With the index in agreement, `codeOf?` gives `i + 1` exactly for the `i`-th label
  (`Categories.Agrees.codeOf?_eq_some_iff`); with fewer than `2^53` labels the codes are exact
  floats, and `label?` gives a label exactly at the code `codeOf?` gives it
  (`Categories.Agrees.label?_eq_some_iff_codeOf?`): every other float, whether NA, infinite,
  not whole, below 1 or above the number of labels, has none (`Categories.label?_eq_none_iff`).
* The code interning returns is the code the new table gives the label
  (`Categories.codeOf?_intern`). So after `x = s` or `x[t] = s` on a series with category labels,
  the series holds at each written observation a code that `x == s` recognises
  (`Assign.categorical_write_stores_code`, `Collections.compareWithSeries_code`).
* **`category_codes_are_bijective`** gathers these.
-/

namespace Float

open Float.Model Float.Model.UnpackedFloat

/-- A count below `2^53` is not NaN. -/
theorem isNaN_toFloat {n : Nat} (h : n < 2 ^ 53) : n.toFloat.isNaN = false := by
  show n.toFloat.toModel.unpack.isNaN = false
  rw [unpack_toFloat h]
  unfold wholeUnpacked
  split <;> rfl

/-- A count below `2^53` equals itself as a float. -/
theorem beq_toFloat_self {n : Nat} (h : n < 2 ^ 53) : (n.toFloat == n.toFloat) = true := by
  show (n.toFloat.toModel.unpack.compare n.toFloat.toModel.unpack == some .eq) = true
  rw [unpack_toFloat h, compare_wholeUnpacked, Nat.compare_eq_eq.mpr rfl]
  rfl

/-- NaN and the infinities are not whole. -/
theorem isWhole_eq_false {x : Float} (h : x.isNaN = true ∨ x.isInf = true) : x.isWhole = false := by
  have hu : x.toModel.unpack.isNaN = true ∨ x.toModel.unpack.isInf = true := h
  unfold isWhole
  generalize x.toModel.unpack = u at hu ⊢
  cases u with
  | notANumber => rfl
  | infinity s => rfl
  | zero s => rcases hu with hu | hu <;> exact absurd hu Bool.false_ne_true
  | finite s m e hm => rcases hu with hu | hu <;> exact absurd hu Bool.false_ne_true

end Float

namespace SeriesCalc

namespace Categories

variable {t : Categories} {s : String}

/-! ## Label to code -/

/-- No label appears twice. -/
def Distinct (t : Categories) : Prop := t.labels.toList.Nodup

/-- The index gives each label exactly its position. -/
def Agrees (t : Categories) : Prop := Indexes t.index t.labels.toList

theorem agrees_empty : ({} : Categories).Agrees := Indexes.empty

/-- An index that agrees leaves no label twice. -/
theorem Agrees.distinct (h : t.Agrees) : t.Distinct := Indexes.nodup h

theorem Agrees.index_eq_some_iff (h : t.Agrees) {i : Nat} :
    t.index[s]? = some i ↔ t.labels[i]? = some s := by
  rw [h s i, Array.getElem?_toList]

/-- A label has no code exactly when the table does not hold it. -/
theorem Agrees.codeOf?_eq_none_iff (h : t.Agrees) : t.codeOf? s = none ↔ s ∉ t.labels := by
  rw [codeOf?, Option.map_eq_none_iff, Indexes.getElem?_eq_none_iff h, Array.mem_toList_iff]

/-- With the index in agreement, `codeOf?` gives `i + 1` exactly for the `i`-th label. -/
theorem Agrees.codeOf?_eq_some_iff (h : t.Agrees) {c : Float} :
    t.codeOf? s = some c ↔ ∃ i, t.labels[i]? = some s ∧ c = (i + 1).toFloat := by
  rw [codeOf?, Option.map_eq_some_iff]
  constructor
  · rintro ⟨i, hi, rfl⟩
    exact ⟨i, h.index_eq_some_iff.mp hi, rfl⟩
  · rintro ⟨i, hi, rfl⟩
    exact ⟨i, h.index_eq_some_iff.mpr hi, rfl⟩

/-! ## Interning -/

/-- A label with a code is interned to it, the table unchanged. -/
theorem intern_of_codeOf? {c : Float} (hc : t.codeOf? s = some c) : t.intern s = (t, c) := by
  unfold intern
  rw [hc]

/-- A label without a code is appended and indexed to its position, and its code is the new
number of labels. -/
theorem intern_of_codeOf?_eq_none (hc : t.codeOf? s = none) :
    t.intern s =
      ({ labels := t.labels.push s, index := t.index.insert s t.size }, (t.size + 1).toFloat) := by
  unfold intern
  rw [hc]
  rfl

/-- With the index in agreement, a held label is interned to its code, the table unchanged. -/
theorem Agrees.intern_of_mem (h : t.Agrees) (hs : s ∈ t.labels) :
    ∃ c, t.codeOf? s = some c ∧ t.intern s = (t, c) := by
  cases hc : t.codeOf? s with
  | none => exact absurd hs (h.codeOf?_eq_none_iff.mp hc)
  | some c => exact ⟨c, rfl, intern_of_codeOf? hc⟩

/-- Interning adds at most one label. -/
theorem size_intern_le (t : Categories) (s : String) : (t.intern s).1.size ≤ t.size + 1 := by
  cases hc : t.codeOf? s with
  | none =>
    rw [intern_of_codeOf?_eq_none hc]
    exact Nat.le_of_eq (Array.size_push _)
  | some c =>
    rw [intern_of_codeOf? hc]
    exact Nat.le_succ _

/-- The code interning returns is the code the new table gives the label. -/
theorem codeOf?_intern (t : Categories) (s : String) :
    (t.intern s).1.codeOf? s = some (t.intern s).2 := by
  cases hc : t.codeOf? s with
  | none =>
    -- the new label is indexed to the position just appended
    rw [intern_of_codeOf?_eq_none hc]
    simp [codeOf?, size]
  | some c =>
    rw [intern_of_codeOf? hc]
    exact hc

/-- Interning keeps the index in agreement: a new label goes in at the end of the labels and
under its position in the index. -/
theorem Agrees.intern (h : t.Agrees) (s : String) : (t.intern s).1.Agrees := by
  cases hc : t.codeOf? s with
  | none =>
    rw [intern_of_codeOf?_eq_none hc]
    have hx : t.index[s]? = none := Option.map_eq_none_iff.mp hc
    show Indexes (t.index.insert s t.labels.size) (t.labels.push s).toList
    rw [Array.toList_push, ← Array.length_toList]
    exact h.push hx
  | some c =>
    rw [intern_of_codeOf? hc]
    exact h

/-- Interning the labels of a list one by one keeps the index in agreement. -/
theorem Agrees.foldl_intern (h : t.Agrees) (ss : List String) :
    (ss.foldl (fun t s => (t.intern s).1) t).Agrees := by
  induction ss generalizing t with
  | nil => exact h
  | cons s ss ih => exact ih (h.intern s)

/-- The tables a program makes: the table of a list of labels, and any table it interns one more
label into. -/
inductive Built : Categories → Prop
  | ofList (ss : List String) : Built (ofList ss)
  | intern {t : Categories} (s : String) : Built t → Built (t.intern s).1

/-- Every table a program makes keeps its index in agreement with its labels. -/
theorem Built.agrees (h : t.Built) : t.Agrees := by
  induction h with
  | ofList ss => exact agrees_empty.foldl_intern ss
  | intern s _ ih => exact ih.intern s

/-! ## Code to label -/

/-- Below `2^53`, the code `p + 1` names label `p`. -/
theorem label?_toFloat (t : Categories) {p : Nat} (hp : p + 1 < 2 ^ 53) :
    t.label? (p + 1).toFloat = t.labels[p]? := by
  have h1 : ¬ (p + 1).toFloat < 1 := by
    show ¬ (p + 1).toFloat < Nat.toFloat 1
    rw [Float.toFloat_lt_toFloat hp (by decide)]
    omega
  unfold label?
  rw [Float.isWhole_toFloat hp, Float.toCount_toFloat hp]
  simp [h1]

/-- A code with a label passes the index test: whole, at least 1, at most the number of labels. -/
theorem isIndex_of_label? (hsize : t.size < 2 ^ 53) {c : Float} (h : t.label? c = some s) :
    c.isWhole = true ∧ ¬ c < 1 ∧ ¬ t.size.toFloat < c := by
  unfold label? at h
  split at h
  · cases h
  rename_i hidx
  have hw : c.isWhole = true := by simp_all
  have h1 : ¬ c < 1 := by simp_all
  have hlt : c.toCount - 1 < t.labels.size := (Array.getElem?_eq_some_iff.mp h).1
  refine ⟨hw, h1, fun hgt => ?_⟩
  rcases Float.whole_cases hw h1 with ⟨v, -, hv, rfl⟩ | ⟨hbig, -⟩
  · rw [Float.toCount_toFloat hv] at hlt
    rw [Float.toFloat_lt_toFloat hsize hv] at hgt
    unfold size at hgt
    omega
  · unfold size at hsize
    omega

/-- With fewer than `2^53` labels, a code names a label exactly when it is `i + 1` for the
`i`-th label. -/
theorem label?_eq_some_iff (hsize : t.size < 2 ^ 53) {c : Float} :
    t.label? c = some s ↔ ∃ i, t.labels[i]? = some s ∧ c = (i + 1).toFloat := by
  constructor
  · intro h
    obtain ⟨p, hp, rfl⟩ := (Float.isIndex_iff hsize).mp (isIndex_of_label? hsize h)
    exact ⟨p, by rwa [label?_toFloat t (by omega)] at h, rfl⟩
  · rintro ⟨i, hi, rfl⟩
    have hlt : i < t.size := (Array.getElem?_eq_some_iff.mp hi).1
    rw [label?_toFloat t (by omega)]
    exact hi

/-- With the index in agreement and fewer than `2^53` labels, `label?` and `codeOf?` are inverse:
a code names a label exactly when it is that label's code. -/
theorem Agrees.label?_eq_some_iff_codeOf? (h : t.Agrees) (hsize : t.size < 2 ^ 53) {c : Float} :
    t.label? c = some s ↔ t.codeOf? s = some c :=
  (label?_eq_some_iff hsize).trans h.codeOf?_eq_some_iff.symm

/-- With fewer than `2^53` labels, a code names no label exactly when it is not whole (NA and
the infinities among them), below 1, or above the number of labels. -/
theorem label?_eq_none_iff (hsize : t.size < 2 ^ 53) {c : Float} :
    t.label? c = none ↔ c.isWhole = false ∨ c < 1 ∨ t.size.toFloat < c := by
  constructor
  · intro h
    by_contra hc
    simp only [not_or, Bool.not_eq_false] at hc
    obtain ⟨p, hp, rfl⟩ := (Float.isIndex_iff hsize).mp hc
    rw [label?_toFloat t (by omega)] at h
    exact absurd h (by simpa [size] using hp)
  · intro h
    cases hl : t.label? c with
    | none => rfl
    | some s =>
      obtain ⟨hw, h1, hle⟩ := isIndex_of_label? hsize hl
      rcases h with h | h | h
      · rw [hw] at h
        cases h
      · exact absurd h h1
      · exact absurd h hle

/-- The code `codeOf?` gives a held label names that label. -/
theorem Agrees.label?_codeOf? (h : t.Agrees) (hsize : t.size < 2 ^ 53) (hs : s ∈ t.labels) :
    (t.codeOf? s).bind t.label? = some s := by
  cases hc : t.codeOf? s with
  | none => exact absurd hs (h.codeOf?_eq_none_iff.mp hc)
  | some c =>
    obtain ⟨i, hi, rfl⟩ := h.codeOf?_eq_some_iff.mp hc
    have hlt : i < t.size := (Array.getElem?_eq_some_iff.mp hi).1
    rw [Option.bind_some, label?_toFloat t (by omega)]
    exact hi

end Categories

/-! ## Comparing a series with a label -/

/-- A string is no column. -/
theorem Column.of?_eq_none_of_str {rhs : Operand} {str : String} (h : rhs.value = .str str)
    (ds : Dataset) : Column.of? rhs ds = none := by
  obtain ⟨v, origin, cats⟩ := rhs
  dsimp only at h
  subst h
  rfl

namespace Binary

/-- `x == s` for a series `x` writes the comparison of the series with the label into the cell. -/
theorem apply_eq_series_str (env : OpEnv) {o : Operand} {xs : Array Float} (ho : o.value = .series xs)
    (str : String) (sc : Scratch) :
    Scratch.exec (Binary.apply env .eq o { value := .str str }) sc =
      (.ok (), { sc with cell := .series (Collections.compareWithSeries env false str o xs) }) := by
  obtain ⟨v, origin, cats⟩ := o
  dsimp only at ho
  subst ho
  rfl

end Binary

namespace Collections

/-- At an observation of the sample where a series with category labels holds the code its table
gives `s`, and that code is a number, `x == s` is 1. -/
theorem compareWithSeries_code {env : OpEnv} {o : Operand} {xs : Array Float} {tbl : Categories}
    {str : String} {c : Float} {t : Nat} (hcats : o.categories = some tbl)
    (hcode : tbl.codeOf? str = some c) (hnan : c.isNaN = false) (hself : (c == c) = true)
    (hv : xs[t]? = some c) (hn : t < env.ds.nobs) (ht : t ∈ env.ds.sampleRange) :
    (compareWithSeries env false str o xs)[t]? = some 1 := by
  unfold compareWithSeries
  rw [hcats]
  dsimp only
  rw [getElem?_fillSeriesPure, if_pos hn, if_pos ht, hcode, Array.getD_eq_getD_getElem?, hv,
    Option.getD_some, hnan]
  simp [hself, ofBool]

end Collections

/-- An observation written over that the series stores holds the written value. -/
theorem Series.WrittenOver.getElem?_of_mem {s s' : Series} {obs : List Nat} {v : Nat → Float}
    {t : Nat} (h : s.WrittenOver s' obs v) (ht : t ∈ obs) (hlt : t < s.values.size) :
    s'.values[t]? = some (v t) := by
  rw [h.2 t, if_pos ht, Array.getElem?_eq_getElem hlt]
  rfl

namespace Assign

open WriteM

variable {sid t : Nat} {op : AssignOp} {rhs : Operand} {target : DeclaredType} {ws ws' : Workspace}
  {place : Place} {s : Series} {tbl : Categories} {str : String}

/-- A write to a whole dataset series is `writeSeries`. -/
theorem write_whole_series (hroot : place.root = .series sid) (hsteps : place.steps = [])
    (hok : (write place op rhs target).exec ws = (.ok (), ws')) :
    (writeSeries sid place.text op rhs target).exec ws = (.ok (), ws') := by
  unfold write at hok
  rw [if_pos (by simp [hsteps])] at hok
  unfold whole at hok
  simp only [hroot] at hok
  exact hok

/-- A write to one addressed observation of a dataset series is `writeObs`. -/
theorem write_obs_series (hroot : place.root = .series sid) {args : List Subscript}
    (hsteps : place.steps = [.sub args]) (hobs : observation ws.dataset args = .ok t)
    (hok : (write place op rhs target).exec ws = (.ok (), ws')) :
    (writeObs sid t place.text op rhs).exec ws = (.ok (), ws') := by
  unfold write at hok
  rw [if_neg (by simp [hsteps])] at hok
  unfold nested at hok
  simp only [hroot, hsteps] at hok
  obtain ⟨ds, ws₁, h₁, hok⟩ := exec_bind_eq_ok hok
  rw [exec_dataset] at h₁
  cases h₁
  obtain ⟨t', ws₂, h₂, hok⟩ := exec_bind_eq_ok hok
  rw [exec_lift, hobs] at h₂
  cases h₂
  exact hok

/-- A successful `x = s` or `x[t] = s` of a string into a dataset series with category labels,
at an observation `t` of the sample (addressed by the subscript, for `x[t] = s`): the series
afterwards carries its table with `s` interned, and holds the code interning returned at `t` when
it stores `t`. -/
theorem categorical_write_stores_code (hroot : place.root = .series sid)
    (hs : ws.dataset.series[sid]? = some s) (hcat : s.categories = some tbl)
    (hstr : rhs.value = .str str) (hok : (write place op rhs target).exec ws = (.ok (), ws'))
    (hwritten : place.steps = [] ∨
      ∃ args, place.steps = [.sub args] ∧ observation ws.dataset args = .ok t)
    (ht : t ∈ ws.dataset.sampleRange) :
    ∃ s' log,
      ws' = { ws with
        dataset := { ws.dataset with modified := true, series := ws.dataset.series.set! sid s' },
        warnings := log } ∧
      s'.categories = some (tbl.intern str).1 ∧
      (t < s.values.size → s'.values[t]? = some (tbl.intern str).2) := by
  rcases hwritten with hsteps | ⟨args, hsteps, hobs⟩
  · -- the whole series: the sample is not empty, so the string was interned and written over it
    rcases writeSeries_eq_ok (write_whole_series hroot hsteps hok) with
      ⟨hn, -⟩ | ⟨-, s₀, s', log, hs₀, hws, hw⟩
    · exact absurd hn (Dataset.mem_sampleRange.mp ht).1
    rw [hs] at hs₀
    cases hs₀
    rcases hw with ⟨col, hcol, -⟩ | ⟨str', tbl', hstr', -, hcat', hcats, hover⟩
    · rw [Column.of?_eq_none_of_str hstr] at hcol
      cases hcol
    rw [hstr] at hstr'
    cases hstr'
    rw [hcat] at hcat'
    cases hcat'
    exact ⟨s', log, hws, hcats, hover.getElem?_of_mem ht⟩
  · -- one observation: a series with category labels takes only the code of a string
    obtain ⟨-, s₀, s', log, hs₀, hws, hw⟩ := writeObs_eq_ok (write_obs_series hroot hsteps hobs hok)
    rw [hs] at hs₀
    cases hs₀
    rcases hw with ⟨x, hnone, -⟩ | ⟨str', tbl', hstr', -, hcat', hcats, hover⟩
    · rw [hcat] at hnone
      cases hnone
    rw [hstr] at hstr'
    cases hstr'
    rw [hcat] at hcat'
    cases hcat'
    exact ⟨s', log, hws, hcats, hover.getElem?_of_mem (List.mem_singleton_self t)⟩

/-- **After `x = s` or `x[t] = s` on a series with category labels, `x == s` holds where it was
written.** On a well-formed dataset, a successful write of the string `s` into the dataset
series `x`, whose table a program built and can take one more label below `2^53`, leaves `x`
reading back so that
`x == s` is 1 at every written observation of the sample: all of it for `x = s`, the addressed
one for `x[t] = s`. -/
theorem categorical_write_then_equal (hwf : ws.dataset.WellFormed) (hroot : place.root = .series sid)
    (hs : ws.dataset.series[sid]? = some s) (hcat : s.categories = some tbl) (hbuilt : tbl.Built)
    (hsize : tbl.size + 1 < 2 ^ 53) (hstr : rhs.value = .str str)
    (hok : (write place op rhs target).exec ws = (.ok (), ws'))
    (hwritten : place.steps = [] ∨
      ∃ args, place.steps = [.sub args] ∧ observation ws.dataset args = .ok t)
    (ht : t ∈ ws.dataset.sampleRange) :
    ∃ x, ws'.resolve (.series sid) = .ok x ∧ ∀ (env : OpEnv) (sc : Scratch), env.ds = ws'.dataset →
      ∃ v, Scratch.exec (Binary.apply env .eq x { value := .str str }) sc =
          (.ok (), { sc with cell := .series v }) ∧ v[t]? = some 1 := by
  obtain ⟨s', log, hws, hcats, hval⟩ := categorical_write_stores_code hroot hs hcat hstr hok hwritten ht
  -- the write changes the series `sid` and nothing of the sample
  have hget : ws'.dataset.get? sid = some s' := by
    rw [hws]
    show (ws.dataset.series.set! sid s')[sid]? = some s'
    rw [Array.set!_eq_setIfInBounds,
      Array.getElem?_setIfInBounds_self_of_lt (Array.getElem?_eq_some_iff.mp hs).1]
  have hsample : ws'.dataset.nobs = ws.dataset.nobs ∧ ws'.dataset.sampleRange = ws.dataset.sampleRange := by
    rw [hws]
    exact ⟨rfl, rfl⟩
  refine ⟨{ value := .series s'.values, origin := some sid, categories := s'.categories }, ?_,
    fun env sc henv => ?_⟩
  · unfold Workspace.resolve
    dsimp only
    rw [hget]
  -- on a well-formed dataset the series stores every observation of the sample
  have hn : t < ws.dataset.nobs := by
    obtain ⟨hn0, -, ht2⟩ := Dataset.mem_sampleRange.mp ht
    have := (hwf.sample (Nat.pos_of_ne_zero hn0)).2
    omega
  have hstored : t < s.values.size := by
    rw [hwf.sizes s (Array.mem_of_getElem? hs)]
    exact hn
  -- the interned code is `i + 1` for a label position `i` below `2^53`
  have hcode' := Categories.codeOf?_intern tbl str
  obtain ⟨i, hi, hcode⟩ := ((hbuilt.agrees.intern str).codeOf?_eq_some_iff).mp hcode'
  have hi1 : i + 1 < 2 ^ 53 := by
    have hlt : i < (tbl.intern str).1.size := (Array.getElem?_eq_some_iff.mp hi).1
    have := Categories.size_intern_le tbl str
    omega
  rw [hcode] at hval hcode'
  refine ⟨_, Binary.apply_eq_series_str env rfl str sc, ?_⟩
  exact Collections.compareWithSeries_code hcats hcode' (Float.isNaN_toFloat hi1)
    (Float.beq_toFloat_self hi1) (hval hstored) (by rw [henv, hsample.1]; exact hn)
    (by rw [henv, hsample.2]; exact ht)

end Assign

open Categories in
/-- **Category codes and labels name each other.** Every table a program builds, from a list of
labels and then by interning one at a time, has pairwise distinct labels and an index that gives
each label exactly its position, so `codeOf?` gives `i + 1` exactly for its `i`-th label. With
fewer than `2^53` labels: the code of a held label reads back as that label, and `label?` gives a
label exactly at its code; interning a held label returns its code and keeps the table, and
interning a new one appends it, indexes it to its position and returns the new number of labels;
and a code that is not whole (NA and the infinities among them), below 1 or above the number of
labels names none.
Hence, on a well-formed dataset, after a successful `x = s` or `x[t] = s` on a series `x` with
category labels whose table a program built and can take one more label, `x == s` is 1 at every
written observation of the sample. -/
theorem category_codes_are_bijective :
    (∀ t : Categories, t.Built → t.size < 2 ^ 53 →
      t.labels.toList.Nodup ∧
      (∀ (s : String) (i : Nat), t.index[s]? = some i ↔ t.labels[i]? = some s) ∧
      (∀ s c, t.codeOf? s = some c ↔ ∃ i, t.labels[i]? = some s ∧ c = (i + 1).toFloat) ∧
      (∀ s ∈ t.labels, (t.codeOf? s).bind t.label? = some s) ∧
      (∀ s c, t.label? c = some s ↔ t.codeOf? s = some c) ∧
      (∀ s ∈ t.labels, ∃ c, t.codeOf? s = some c ∧ t.intern s = (t, c)) ∧
      (∀ s, s ∉ t.labels →
        (t.intern s).1.labels = t.labels.push s ∧ (t.intern s).1.index = t.index.insert s t.size ∧
          (t.intern s).2 = (t.intern s).1.size.toFloat) ∧
      (∀ c, t.label? c = none ↔ c.isWhole = false ∨ c < 1 ∨ t.size.toFloat < c) ∧
      (∀ c, c.isNaN = true ∨ c.isInf = true → t.label? c = none)) ∧
    (∀ {ws ws' : Workspace} {place : Place} {op : AssignOp} {rhs : Operand}
        {target : DeclaredType} {sid t : Nat} {s : Series} {tbl : Categories} {str : String},
      ws.dataset.WellFormed → place.root = .series sid → ws.dataset.series[sid]? = some s →
      s.categories = some tbl → tbl.Built → tbl.size + 1 < 2 ^ 53 → rhs.value = .str str →
      (Assign.write place op rhs target).exec ws = (.ok (), ws') →
      (place.steps = [] ∨
        ∃ args, place.steps = [.sub args] ∧ Assign.observation ws.dataset args = .ok t) →
      t ∈ ws.dataset.sampleRange →
      ∃ x, ws'.resolve (.series sid) = .ok x ∧ ∀ (env : OpEnv) (sc : Scratch), env.ds = ws'.dataset →
        ∃ v, Scratch.exec (Binary.apply env .eq x { value := .str str }) sc =
            (.ok (), { sc with cell := .series v }) ∧ v[t]? = some 1) := by
  refine ⟨fun t ht hsize => ?_, Assign.categorical_write_then_equal⟩
  have ha := ht.agrees
  refine ⟨ha.distinct, fun s i => ha.index_eq_some_iff, fun s c => ha.codeOf?_eq_some_iff,
    fun s hs => ha.label?_codeOf? hsize hs, fun s c => ha.label?_eq_some_iff_codeOf? hsize,
    fun s hs => ha.intern_of_mem hs, fun s hs => ?_, fun c => label?_eq_none_iff hsize,
    fun c hc => (label?_eq_none_iff hsize).mpr (.inl (Float.isWhole_eq_false hc))⟩
  -- a new label is appended and indexed, and its code is the new number of labels
  rw [intern_of_codeOf?_eq_none (ha.codeOf?_eq_none_iff.mpr hs)]
  exact ⟨rfl, rfl, by simp [size]⟩

/-- `x = "b"`. -/
def xGetsB : Place := ⟨.series 1, [], "x"⟩

/-- Two observations and a series `x` with category labels, both observations labelled `a`. -/
def labelledXWs : Workspace :=
  { dataset := { nobs := 2, t2 := 1,
                 series := #[{ name := "const", values := #[1, 1] },
                             { name := "x", values := #[1, 1],
                               categories := some (Categories.ofList ["a"]) }] } }

theorem labelledXWs_wellFormed : labelledXWs.dataset.WellFormed where
  sizes := by decide
  const := ⟨{ name := "const", values := #[1, 1] }, rfl, rfl, fun x hx => by simpa using hx⟩
  names_nodup := by decide
  markers := fun ms h => by cases h
  sample := fun _ => by decide
  sample_empty := fun h => by cases h
  periods := fun u p h => by cases h

/-- Labels `a` and `b` are read back from their codes, and after `x = "b"` on a series labelled
`a`, `x == "b"` is 1 at the first observation. -/
theorem relabelled_series_equals_its_label :
    ((Categories.ofList ["a", "b"]).codeOf? "b").bind (Categories.ofList ["a", "b"]).label? =
        some "b" ∧
      ∃ ws', (Assign.write xGetsB .assign { value := .str "b" } .any).exec labelledXWs =
          (.ok (), ws') ∧
        ∃ x, ws'.resolve (.series 1) = .ok x ∧ ∀ (env : OpEnv) (sc : Scratch), env.ds = ws'.dataset →
          ∃ v, Scratch.exec (Binary.apply env .eq x { value := .str "b" }) sc =
              (.ok (), { sc with cell := .series v }) ∧ v[0]? = some 1 := by
  have hok : (Assign.write xGetsB .assign { value := .str "b" } .any).exec labelledXWs =
      (.ok (), ((Assign.write xGetsB .assign { value := .str "b" } .any).exec labelledXWs).2) := rfl
  refine ⟨(category_codes_are_bijective.1 _ (.ofList _) (by decide +kernel)).2.2.2.1 "b"
    (by decide +kernel), _, hok, ?_⟩
  exact category_codes_are_bijective.2 labelledXWs_wellFormed rfl rfl rfl (.ofList _)
    (by decide +kernel) rfl hok (.inl rfl) (by decide)

end SeriesCalc
