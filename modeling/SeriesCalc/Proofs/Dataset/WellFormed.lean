import SeriesCalc.Proofs.Indexes

/-!
# Well-formed datasets

`Dataset.WellFormed`: every series has one value per observation; series `0` is `const`, all
ones; no two series share a name; markers, when there are any, label every observation; the
sample `t1..t2` lies within the observations, and is `0..0` when there are none; a panel with
observations has periods.

* `Dataset.Indexed`: the index gives each series name exactly the series' position
  (`Indexes`), and every position fits an id. Then `lookup name = some id` exactly when series
  `id` bears `name` (`lookup_eq_some_iff`).
* What a call of each operation that returns checked and built: `setShape_eq_ok`,
  `resize_eq_ok`, `addSeries_eq_ok`, `modifySeries_eq_ok`, ...; the lemmas below read
  these and do not unfold the operations.
* One lemma per operation keeps each invariant: `WellFormed.setShape`, `WellFormed.resize`,
  `WellFormed.addSeries`, `WellFormed.modifySeries`, ..., and `Indexed.addSeries` (the new name
  indexed), `Indexed.renameSeries` (the old name out, the new one in), `Indexed.deleteSeries` (the
  index rebuilt), ...
* `Edit ds ds'`: one successful call of an editing operation; `Reachable`: what edits reach
  from `create` or `withShape`.
* **`edits_keep_wellFormed`**: every reachable dataset is well-formed and its index finds
  series by name; no edit takes the epoch back, and resizing, renaming and deleting move it on.
-/

namespace SeriesCalc

namespace Dataset

/-! ## The invariant -/

/-- The names of the series, in order. -/
def names (ds : Dataset) : List String := ds.series.toList.map Series.name

/-- What every dataset that the editing operations reach satisfies. -/
structure WellFormed (ds : Dataset) : Prop where
  /-- Every series has one value per observation. -/
  sizes : ∀ s ∈ ds.series, s.values.size = ds.nobs
  /-- Series `0` is `const`, all ones. -/
  const : ∃ c, ds.series[0]? = some c ∧ c.name = "const" ∧ ∀ x ∈ c.values, x = 1
  /-- No two series share a name. -/
  names_nodup : ds.names.Nodup
  /-- Markers, when there are any, label each observation. -/
  markers : ∀ ms ∈ ds.markers, ms.size = ds.nobs
  /-- The sample lies within the observations ... -/
  sample : 0 < ds.nobs → ds.t1 ≤ ds.t2 ∧ ds.t2 < ds.nobs
  /-- ... and is `0..0` when there are none. -/
  sample_empty : ds.nobs = 0 → ds.t1 = 0 ∧ ds.t2 = 0
  /-- A panel with observations has periods. -/
  periods : ∀ u p, ds.shape = .panel u p → 0 < ds.nobs → 0 < p

theorem wellFormed_create (n : Nat) : (create n).WellFormed where
  sizes := by simp [create]
  const := ⟨_, rfl, rfl, fun _ hx => (Array.mem_replicate.1 hx).2⟩
  names_nodup := by simp [names, create]
  markers := by simp [create]
  sample := fun (h : 0 < n) => show 0 ≤ n - 1 ∧ n - 1 < n by omega
  sample_empty := fun (h : n = 0) => show 0 = 0 ∧ n - 1 = 0 by omega
  periods := by simp [create]

/-! ## Names -/

/-- Changing each series but not its name keeps the names. -/
theorem names_mapIdx {xs : Array Series} {f : Nat → Series → Series} (hf : ∀ i s, (f i s).name = s.name) :
    (xs.mapIdx f).toList.map Series.name = xs.toList.map Series.name :=
  List.ext_getElem (by simp) fun i _ _ => by simp [hf]

/-- Replacing one series changes one name. -/
theorem names_set (ds : Dataset) (i : Nat) (s : Series) :
    (ds.series.set! i s).toList.map Series.name = ds.names.set i s.name := by
  simp [names, List.map_set]

/-- Replacing a series by one of the same name keeps the names. -/
theorem names_set_of_name {ds : Dataset} {i : Nat} {old s : Series} (hold : ds.series[i]? = some old)
    (hs : s.name = old.name) : (ds.series.set! i s).toList.map Series.name = ds.names := by
  have hlen : i < ds.names.length := by simpa [names] using (Array.getElem?_eq_some_iff.1 hold).1
  have hget : ds.names[i] = s.name := by
    simp [names, (Array.getElem?_eq_some_iff.1 hold).2, hs]
  rw [names_set, ← hget, List.set_getElem_self hlen]

theorem getElem?_names (ds : Dataset) (id : Nat) : ds.names[id]? = (ds.get? id).map Series.name := by
  simp [names, get?]

/-! ## The index -/

/-- The index gives each series name exactly the series' position, and every position fits an
id. -/
structure Indexed (ds : Dataset) : Prop where
  agrees : Indexes ds.index ds.names
  fits : ds.series.size ≤ idLimit

/-- Where the index agrees, `lookup` finds a series exactly by its name. -/
theorem lookup_eq_some_iff {ds : Dataset} (h : Indexes ds.index ds.names) {name : String} {id : Nat} :
    ds.lookup name = some id ↔ ∃ s, ds.get? id = some s ∧ s.name = name := by
  rw [lookup, h name id, getElem?_names, Option.map_eq_some_iff]

theorem indexed_create (n : Nat) : (create n).Indexed where
  agrees := Indexes.empty.push (x := "const") (by simp)
  fits := Nat.one_le_two_pow

/-! ## What each operation returns

One lemma per operation says what a call that returns checked and built; the invariant and the
epoch are read off these, and no later proof unfolds an operation again. -/

/-- A shape is set as given: a panel's units times periods, as a word, are the observations,
and a time shape has a positive frequency. -/
theorem setShape_eq_ok {ds ds' : Dataset} {s : DataShape} (h : ds.setShape s = .ok ds') :
    ds' = { ds with shape := s } ∧ (∀ u p, s = .panel u p → Word.mul u p = ds.nobs) ∧
      ∀ start, s ≠ .time 0 start := by
  unfold Dataset.setShape at h
  split at h
  · split at h
    · cases h
    · rename_i u p hmul
      cases h
      refine ⟨rfl, fun u' p' hp => ?_, fun _ hp => by cases hp⟩
      cases hp
      simpa using hmul
  · cases h
  · rename_i hpanel htime
    cases h
    exact ⟨rfl, fun u p hp => absurd hp (hpanel u p), fun start hp => htime start hp⟩

/-- A sample is set when it is a range of the observations. -/
theorem setSample_eq_ok {ds ds' : Dataset} {t1 t2 : Nat} (h : ds.setSample t1 t2 = .ok ds') :
    t1 ≤ t2 ∧ t2 < ds.nobs ∧ ds' = { ds with t1, t2 } := by
  unfold Dataset.setSample at h
  split at h
  · cases h
  · rename_i hok
    cases h
    have hb : t1 ≤ t2 ∧ t2 < ds.nobs := by simpa using hok
    exact ⟨hb.1, hb.2, rfl⟩

/-- Markers are set when there is one for each observation. -/
theorem setMarkers_eq_ok {ds ds' : Dataset} {ms : Array String} (h : ds.setMarkers ms = .ok ds') :
    ms.size = ds.nobs ∧ ds' = { ds with markers := some ms } := by
  unfold Dataset.setMarkers at h
  split at h
  · cases h
  · rename_i hok
    cases h
    exact ⟨by simpa using hok, rfl⟩

/-- A dataset that is no panel is resized: the series and markers refitted to `n`, the sample
the full range, the epoch moved on. -/
theorem resize_eq_ok {ds ds' : Dataset} {n : Nat} (h : ds.resize n = .ok ds') :
    (∀ u p, ds.shape ≠ .panel u p) ∧
      ds' = ({ ds with
        nobs := n
        series := ds.series.mapIdx fun i s => { s with values :=
          (if n ≤ s.values.size then s.values.extract 0 n
            else s.values ++ Array.replicate (n - s.values.size) (if i == 0 then 1 else 0 / 0)) }
        markers := ds.markers.map fun ms =>
          (if n ≤ ms.size then ms.extract 0 n
            else ms ++ ((List.range (n - ms.size)).map fun j => toString (ms.size + j + 1)).toArray) }
        : Dataset).fullSample.bump := by
  unfold Dataset.resize at h
  split at h
  · cases h
  · rename_i hpanel
    cases h
    exact ⟨hpanel, rfl⟩

/-- A new series, under a valid name the index does not hold, with one value per observation
and at a position that fits an id, is pushed at the end and indexed. -/
theorem addSeries_eq_ok {ds ds' : Dataset} {name : String} {xs : Array Float} {id : Nat}
    (h : ds.addSeries name xs = .ok (ds', id)) :
    ds.lookup name = none ∧ xs.size = ds.nobs ∧ ds.series.size < idLimit ∧ id = ds.series.size ∧
      ds' = { ds with series := ds.series.push { name, values := xs },
                      index := ds.index.insert name ds.series.size, modified := true } := by
  unfold Dataset.addSeries at h
  split at h
  · cases h
  split at h
  · cases h
  split at h
  · cases h
  split at h
  · cases h
  rename_i _ hfresh hsize hfit
  cases h
  refine ⟨?_, by simpa using hsize, by omega, rfl, rfl⟩
  rw [Std.TreeMap.contains_eq_isSome_getElem?] at hfresh
  exact Option.not_isSome_iff_eq_none.mp hfresh

/-- A series other than `const` that exists is changed in place. -/
theorem modifySeries_eq_ok {ds ds' : Dataset} {id : Nat} {f : Series → Series}
    (h : ds.modifySeries id f = .ok ds') :
    id ≠ 0 ∧ ∃ old, ds.series[id]? = some old ∧
      ds' = { ds with series := ds.series.set! id (f old), modified := true } := by
  unfold Dataset.modifySeries at h
  split at h
  · cases h
  rename_i h0
  split at h
  · cases h
  rename_i old hold
  cases h
  exact ⟨by simpa using h0, old, hold, rfl⟩

/-- A series other than `const` that exists takes a valid name the index does not hold: the old
name leaves the index and the new one is indexed to the series; the epoch moves on. -/
theorem renameSeries_eq_ok {ds ds' : Dataset} {id : Nat} {name : String}
    (h : ds.renameSeries id name = .ok ds') :
    id ≠ 0 ∧ ds.lookup name = none ∧ ∃ old, ds.series[id]? = some old ∧
      ds' = ({ ds with series := ds.series.set! id { old with name },
                       index := (ds.index.erase old.name).insert name id } : Dataset).bump := by
  unfold Dataset.renameSeries at h
  split at h
  · cases h
  rename_i h0
  split at h
  · cases h
  split at h
  · cases h
  rename_i hfresh
  split at h
  · cases h
  rename_i old hold
  cases h
  rw [Std.TreeMap.contains_eq_isSome_getElem?] at hfresh
  exact ⟨by simpa using h0, Option.not_isSome_iff_eq_none.mp hfresh, old, hold, rfl⟩

/-- A series other than `const` that exists is deleted and the index rebuilt; the epoch moves
on. -/
theorem deleteSeries_eq_ok {ds ds' : Dataset} {id : Nat} (h : ds.deleteSeries id = .ok ds') :
    id ≠ 0 ∧ id < ds.series.size ∧
      ds' = ({ ds with series := ds.series.eraseIdx! id,
                       index := Series.nameIndex (ds.series.eraseIdx! id) } : Dataset).bump := by
  unfold Dataset.deleteSeries at h
  split at h
  · cases h
  rename_i h0
  split at h
  · cases h
  rename_i hid
  cases h
  exact ⟨by simpa using h0, by omega, rfl⟩

/-! ## One lemma per operation -/

/-- An entry of an array cut or padded to `n` entries comes from the array or is the
padding. -/
theorem mem_fitted {α : Type} {xs : Array α} {n : Nat} {fill x : α}
    (h : x ∈ (if n ≤ xs.size then xs.extract 0 n else xs ++ Array.replicate (n - xs.size) fill)) :
    x ∈ xs ∨ x = fill := by
  split at h
  · obtain ⟨k, hk, rfl⟩ := Array.mem_extract_iff_getElem.1 h
    exact .inl (Array.getElem_mem _)
  · rcases Array.mem_append.1 h with h | h
    · exact .inl h
    · exact .inr (Array.mem_replicate.1 h).2

/-- Resizing to `n` observations makes the sample the full range and gives every series of
the dataset `n` values. -/
theorem resize_fits {ds ds' : Dataset} {n : Nat} (h : ds.resize n = .ok ds') :
    ds'.nobs = n ∧ ds'.t1 = 0 ∧ ds'.t2 = n - 1 ∧ ∀ s ∈ ds'.series, s.values.size = n := by
  obtain ⟨-, rfl⟩ := resize_eq_ok h
  refine ⟨rfl, rfl, rfl, fun s hs => ?_⟩
  obtain ⟨i, hi, rfl⟩ := Array.mem_iff_getElem.mp hs
  simp only [Dataset.bump, Dataset.fullSample, Array.getElem_mapIdx]
  split
  · simp [*]
  · simp
    omega

namespace WellFormed

variable {ds ds' : Dataset}

/-- Moving the epoch on changes nothing that well-formedness looks at. -/
theorem bump (h : ds.WellFormed) : ds.bump.WellFormed := { h with }

/-- A panel whose units times periods give a positive count of observations has periods. -/
theorem periods_pos_of_mul {u p n : Nat} (h : Word.mul u p = n) (hn : 0 < n) : 0 < p := by
  rcases Nat.eq_zero_or_pos p with rfl | hp
  · simp [Word.mul, Word.wrap] at h
    omega
  · exact hp

theorem setShape (h : ds.WellFormed) {s : DataShape} (hs : ds.setShape s = .ok ds') : ds'.WellFormed := by
  obtain ⟨rfl, hmul, -⟩ := setShape_eq_ok hs
  -- units times periods give the observations, so periods are there when observations are
  exact { h with periods := fun u p hp hn => periods_pos_of_mul (hmul u p hp) hn }

theorem setSample (h : ds.WellFormed) {t1 t2 : Nat} (hs : ds.setSample t1 t2 = .ok ds') :
    ds'.WellFormed := by
  -- the bounds were checked against the observations
  obtain ⟨h12, h2, rfl⟩ := setSample_eq_ok hs
  exact { h with sample := fun _ => ⟨h12, h2⟩, sample_empty := fun (hn : ds.nobs = 0) => by omega }

theorem fullSample (h : ds.WellFormed) : ds.fullSample.WellFormed :=
  { h with
    sample := fun (hn : 0 < ds.nobs) => show 0 ≤ ds.nobs - 1 ∧ ds.nobs - 1 < ds.nobs by omega
    sample_empty := fun (hn : ds.nobs = 0) => show 0 = 0 ∧ ds.nobs - 1 = 0 by omega }

theorem setMarkers (h : ds.WellFormed) {ms : Array String} (hs : ds.setMarkers ms = .ok ds') :
    ds'.WellFormed := by
  obtain ⟨hsize, rfl⟩ := setMarkers_eq_ok hs
  exact { h with markers := fun ms' hms => by cases hms; exact hsize }

/-- Resizing pads or cuts every series and the markers to the new count, the constant with
ones; the names stay, and a panel is never resized. -/
theorem resize (h : ds.WellFormed) {n : Nat} (hs : ds.resize n = .ok ds') : ds'.WellFormed := by
  obtain ⟨hn, ht1, ht2, hsizes⟩ := resize_fits hs
  obtain ⟨hpanel, rfl⟩ := resize_eq_ok hs
  refine ⟨hsizes, ?_, ?_, ?_, ?_, ?_, ?_⟩
  · obtain ⟨c, hc, hname, hone⟩ := h.const
    simp only [Dataset.bump, Dataset.fullSample, Array.getElem?_mapIdx, hc, Option.map_some]
    refine ⟨_, rfl, hname, fun x hx => ?_⟩
    rcases mem_fitted hx with hx | rfl
    · exact hone x hx
    · rfl
  · simp only [names, Dataset.bump, Dataset.fullSample]
    rw [names_mapIdx]
    · exact h.names_nodup
    · exact fun _ _ => rfl
  · -- markers are cut or padded to `n` as the series are
    intro ms hms
    simp only [Dataset.bump, Dataset.fullSample, Option.mem_def, Option.map_eq_some_iff] at hms ⊢
    obtain ⟨old, -, rfl⟩ := hms
    split
    · simp
      omega
    · simp
      omega
  · intro hpos
    rw [hn] at hpos
    rw [ht1, ht2, hn]
    omega
  · intro hzero
    rw [hn] at hzero
    rw [ht1, ht2]
    omega
  · intro u p hp
    exact absurd hp (hpanel u p)

/-- A new series comes last, with a new name and one value per observation. -/
theorem addSeries (h : ds.WellFormed) (hidx : Indexes ds.index ds.names) {name : String}
    {xs : Array Float} {id : Nat} (hs : ds.addSeries name xs = .ok (ds', id)) : ds'.WellFormed := by
  obtain ⟨hfresh, hsize, -, -, rfl⟩ := addSeries_eq_ok hs
  obtain ⟨c, hc, hname, hone⟩ := h.const
  have hpos : 0 < ds.series.size := (Array.getElem?_eq_some_iff.1 hc).1
  refine { h with sizes := fun s hs => ?_, const := ⟨c, ?_, hname, hone⟩, names_nodup := ?_ }
  · rcases Array.mem_push.1 hs with hs | rfl
    · exact h.sizes s hs
    · exact hsize
  · rw [Array.getElem?_push_lt hpos, ← Array.getElem?_eq_getElem hpos]
    exact hc
  · have hnew := hidx.getElem?_eq_none_iff.mp hfresh
    simp only [names, Array.toList_push, List.map_append, List.map_cons, List.map_nil]
    exact List.nodup_append.2 ⟨h.names_nodup, List.nodup_singleton _, fun a ha b hb => by
      rw [List.mem_singleton] at hb
      exact hb ▸ fun hab => hnew (hab ▸ ha)⟩

/-- A write through `modifySeries` that keeps the series' name and gives it one value per
observation. -/
theorem modifySeries (h : ds.WellFormed) {id : Nat} {f : Series → Series}
    (hf : ∀ s ∈ ds.series, (f s).name = s.name ∧ (f s).values.size = ds.nobs)
    (hs : ds.modifySeries id f = .ok ds') : ds'.WellFormed := by
  obtain ⟨h0, old, hold, rfl⟩ := modifySeries_eq_ok hs
  have hmem : old ∈ ds.series := Array.mem_of_getElem? hold
  refine { h with sizes := fun s hs => ?_, const := ?_, names_nodup := ?_ }
  · rcases Array.mem_or_eq_of_mem_setIfInBounds hs with hs | rfl
    · exact h.sizes s hs
    · exact (hf old hmem).2
  · rw [Array.set!_eq_setIfInBounds, Array.getElem?_setIfInBounds_ne h0]
    exact h.const
  · show (List.map Series.name (ds.series.set! id (f old)).toList).Nodup
    rw [names_set_of_name hold (hf old hmem).1]
    exact h.names_nodup

/-- Renaming gives one series other than `const` a name no series has. -/
theorem renameSeries (h : ds.WellFormed) (hidx : Indexes ds.index ds.names) {id : Nat}
    {name : String} (hs : ds.renameSeries id name = .ok ds') : ds'.WellFormed := by
  obtain ⟨h0, hfresh, old, hold, rfl⟩ := renameSeries_eq_ok hs
  have hwf : ({ ds with series := ds.series.set! id { old with name },
                        index := (ds.index.erase old.name).insert name id } : Dataset).WellFormed := by
    refine { h with sizes := fun s hs => ?_, const := ?_, names_nodup := ?_ }
    · rcases Array.mem_or_eq_of_mem_setIfInBounds hs with hs | rfl
      · exact h.sizes s hs
      · exact h.sizes old (Array.mem_of_getElem? hold)
    · rw [Array.set!_eq_setIfInBounds, Array.getElem?_setIfInBounds_ne h0]
      exact h.const
    · show (List.map Series.name (ds.series.set! id { old with name }).toList).Nodup
      rw [names_set]
      exact h.names_nodup.set (hidx.getElem?_eq_none_iff.mp hfresh)
  exact hwf.bump

/-- Deleting a series other than `const` moves the later ones down. -/
theorem deleteSeries (h : ds.WellFormed) {id : Nat} (hs : ds.deleteSeries id = .ok ds') :
    ds'.WellFormed := by
  obtain ⟨h0, hlt, rfl⟩ := deleteSeries_eq_ok hs
  have hwf : ({ ds with series := ds.series.eraseIdx! id,
                        index := Series.nameIndex (ds.series.eraseIdx! id) } : Dataset).WellFormed := by
    rw [Array.eraseIdx!, dif_pos hlt]
    refine { h with sizes := fun s hs => ?_, const := ?_, names_nodup := ?_ }
    · exact h.sizes s (Array.mem_of_mem_eraseIdx hs)
    · rw [Array.getElem?_eraseIdx_of_lt hlt (Nat.pos_of_ne_zero h0)]
      exact h.const
    · show (List.map Series.name (ds.series.eraseIdx id hlt).toList).Nodup
      rw [Array.toList_eraseIdx]
      exact h.names_nodup.sublist ((List.eraseIdx_sublist _ _).map _)
  exact hwf.bump

end WellFormed

namespace Indexed

variable {ds ds' : Dataset}

/-- An edit that keeps the index, the names and the number of series keeps the index right. -/
theorem of_same (h : ds.Indexed) (hidx : ds'.index = ds.index) (hnames : ds'.names = ds.names)
    (hsize : ds'.series.size = ds.series.size) : ds'.Indexed :=
  ⟨hidx ▸ hnames ▸ h.agrees, hsize ▸ h.fits⟩

theorem bump (h : ds.Indexed) : ds.bump.Indexed := ⟨h.agrees, h.fits⟩

theorem setShape (h : ds.Indexed) {s : DataShape} (hs : ds.setShape s = .ok ds') : ds'.Indexed := by
  obtain ⟨rfl, -⟩ := setShape_eq_ok hs
  exact ⟨h.agrees, h.fits⟩

theorem setSample (h : ds.Indexed) {t1 t2 : Nat} (hs : ds.setSample t1 t2 = .ok ds') :
    ds'.Indexed := by
  obtain ⟨-, -, rfl⟩ := setSample_eq_ok hs
  exact ⟨h.agrees, h.fits⟩

theorem fullSample (h : ds.Indexed) : ds.fullSample.Indexed := ⟨h.agrees, h.fits⟩

theorem setMarkers (h : ds.Indexed) {ms : Array String} (hs : ds.setMarkers ms = .ok ds') :
    ds'.Indexed := by
  obtain ⟨-, rfl⟩ := setMarkers_eq_ok hs
  exact ⟨h.agrees, h.fits⟩

/-- Resizing refits the values of each series and keeps the series, so the index stays right. -/
theorem resize (h : ds.Indexed) {n : Nat} (hs : ds.resize n = .ok ds') : ds'.Indexed := by
  obtain ⟨-, rfl⟩ := resize_eq_ok hs
  exact h.of_same rfl (names_mapIdx fun _ _ => rfl) (Array.size_mapIdx ..)

/-- A write that keeps the name of the series it changes keeps the index right. -/
theorem modifySeries (h : ds.Indexed) {id : Nat} {f : Series → Series}
    (hf : ∀ s ∈ ds.series, (f s).name = s.name) (hs : ds.modifySeries id f = .ok ds') :
    ds'.Indexed := by
  obtain ⟨-, old, hold, rfl⟩ := modifySeries_eq_ok hs
  exact h.of_same rfl (names_set_of_name hold (hf old (Array.mem_of_getElem? hold)))
    (by simp [Array.set!_eq_setIfInBounds])

/-- A new series is indexed to its position, which fits an id. -/
theorem addSeries (h : ds.Indexed) {name : String} {xs : Array Float} {id : Nat}
    (hs : ds.addSeries name xs = .ok (ds', id)) : ds'.Indexed := by
  obtain ⟨hfresh, -, hfit, -, rfl⟩ := addSeries_eq_ok hs
  have hpush := h.agrees.push hfresh
  refine ⟨?_, by simp only [Array.size_push]; omega⟩
  simp only [names, Array.toList_push, List.map_append, List.map_cons, List.map_nil] at hpush ⊢
  simpa [names] using hpush

/-- A renamed series leaves the index under its old name and enters it under the new one. -/
theorem renameSeries (h : ds.Indexed) {id : Nat} {name : String}
    (hs : ds.renameSeries id name = .ok ds') : ds'.Indexed := by
  obtain ⟨-, hfresh, old, hold, rfl⟩ := renameSeries_eq_ok hs
  have hname : ds.names[id]? = some old.name := by rw [getElem?_names, get?, hold]; rfl
  refine ⟨?_, by simpa [Dataset.bump, Array.set!_eq_setIfInBounds] using h.fits⟩
  show Indexes ((ds.index.erase old.name).insert name id)
    ((ds.series.set! id { old with name }).toList.map Series.name)
  rw [names_set]
  exact h.agrees.rename hname hfresh

/-- Deleting a series rebuilds the index over the series left. -/
theorem deleteSeries (h : ds.Indexed) {id : Nat} (hs : ds.deleteSeries id = .ok ds') :
    ds'.Indexed := by
  obtain ⟨-, hlt, rfl⟩ := deleteSeries_eq_ok hs
  rw [Array.eraseIdx!, dif_pos hlt]
  have hsub : ((ds.series.eraseIdx id hlt).toList.map Series.name).Sublist ds.names := by
    rw [Array.toList_eraseIdx]
    exact (List.eraseIdx_sublist _ _).map _
  have hfit : (ds.series.eraseIdx id hlt).size ≤ idLimit := by
    simp only [Array.size_eraseIdx]
    have := h.fits
    omega
  exact ⟨indexes_nameIndex _ (h.agrees.nodup.sublist hsub) hfit, hfit⟩

end Indexed

/-! ## Editing -/

/-- One successful call of an editing operation, taking `ds` to `ds'`. A write through
`modifySeries` changes a series in place, keeping its name and its number of values (an
element written, the labels of a string-valued series replaced), or gives it new values, as
many as there are observations. -/
inductive Edit : Dataset → Dataset → Prop
  | setSample {ds ds' : Dataset} {t1 t2 : Nat} : ds.setSample t1 t2 = .ok ds' → Edit ds ds'
  | fullSample (ds : Dataset) : Edit ds ds.fullSample
  | setShape {ds ds' : Dataset} {s : DataShape} : ds.setShape s = .ok ds' → Edit ds ds'
  | resize {ds ds' : Dataset} {n : Nat} : ds.resize n = .ok ds' → Edit ds ds'
  | addSeries {ds ds' : Dataset} {name : String} {xs : Array Float} {id : Nat} :
      ds.addSeries name xs = .ok (ds', id) → Edit ds ds'
  | renameSeries {ds ds' : Dataset} {id : Nat} {name : String} :
      ds.renameSeries id name = .ok ds' → Edit ds ds'
  | deleteSeries {ds ds' : Dataset} {id : Nat} : ds.deleteSeries id = .ok ds' → Edit ds ds'
  | setMarkers {ds ds' : Dataset} {ms : Array String} : ds.setMarkers ms = .ok ds' → Edit ds ds'
  | write {ds ds' : Dataset} {id : Nat} {f : Series → Series} :
      (∀ s, (f s).name = s.name ∧ (f s).values.size = s.values.size) →
      ds.modifySeries id f = .ok ds' → Edit ds ds'
  | writeValues {ds ds' : Dataset} {id : Nat} {xs : Array Float} : xs.size = ds.nobs →
      ds.modifySeries id (fun s => { s with values := xs }) = .ok ds' → Edit ds ds'

/-- Setting the labels of a series is a write in place. -/
theorem Edit.setCategories {ds ds' : Dataset} {id : Nat} {t : Option Categories}
    (hs : ds.setCategories id t = .ok ds') : Edit ds ds' :=
  .write (f := fun s => { s with categories := t }) (fun _ => ⟨rfl, rfl⟩) hs

/-- The datasets that the editing operations reach from a new one. -/
inductive Reachable : Dataset → Prop
  | create (n : Nat) : Reachable (create n)
  | withShape {n : Nat} {s : DataShape} {ds : Dataset} : withShape n s = .ok ds → Reachable ds
  | edit {ds ds' : Dataset} : Reachable ds → Edit ds ds' → Reachable ds'

/-- Every editing operation keeps a dataset well-formed. -/
theorem Edit.wellFormed {ds ds' : Dataset} (h : ds.WellFormed) (hi : ds.Indexed) :
    Edit ds ds' → ds'.WellFormed
  | .setSample hs => h.setSample hs
  | .fullSample _ => h.fullSample
  | .setShape hs => h.setShape hs
  | .resize hs => h.resize hs
  | .addSeries hs => h.addSeries hi.agrees hs
  | .renameSeries hs => h.renameSeries hi.agrees hs
  | .deleteSeries hs => h.deleteSeries hs
  | .setMarkers hs => h.setMarkers hs
  | .write hf hs => h.modifySeries (fun s hmem => ⟨(hf s).1, (hf s).2.trans (h.sizes s hmem)⟩) hs
  | @Edit.writeValues _ _ _ xs hxs hs =>
    h.modifySeries (f := fun s => { s with values := xs }) (fun _ _ => ⟨rfl, hxs⟩) hs

/-- Every editing operation keeps the index right. -/
theorem Edit.indexed {ds ds' : Dataset} (hi : ds.Indexed) : Edit ds ds' → ds'.Indexed
  | .setSample hs => hi.setSample hs
  | .fullSample _ => hi.fullSample
  | .setShape hs => hi.setShape hs
  | .resize hs => hi.resize hs
  | .addSeries hs => hi.addSeries hs
  | .renameSeries hs => hi.renameSeries hs
  | .deleteSeries hs => hi.deleteSeries hs
  | .setMarkers hs => hi.setMarkers hs
  | .write hf hs => hi.modifySeries (fun s _ => (hf s).1) hs
  | @Edit.writeValues _ _ _ xs _ hs =>
    hi.modifySeries (f := fun s => { s with values := xs }) (fun _ _ => rfl) hs

theorem Reachable.indexed {ds : Dataset} : Reachable ds → ds.Indexed
  | .create n => indexed_create n
  | .withShape hs => (indexed_create _).setShape hs
  | .edit hr he => he.indexed hr.indexed

theorem Reachable.wellFormed {ds : Dataset} : Reachable ds → ds.WellFormed
  | .create n => wellFormed_create n
  | .withShape hs => (wellFormed_create _).setShape hs
  | .edit hr he => he.wellFormed hr.wellFormed hr.indexed

/-! ## The epoch -/

theorem epoch_resize {ds ds' : Dataset} {n : Nat} (hs : ds.resize n = .ok ds') :
    ds'.epoch = ds.epoch + 1 := by
  obtain ⟨-, rfl⟩ := resize_eq_ok hs
  rfl

theorem epoch_renameSeries {ds ds' : Dataset} {id : Nat} {name : String}
    (hs : ds.renameSeries id name = .ok ds') : ds'.epoch = ds.epoch + 1 := by
  obtain ⟨-, -, old, -, rfl⟩ := renameSeries_eq_ok hs
  rfl

theorem epoch_deleteSeries {ds ds' : Dataset} {id : Nat} (hs : ds.deleteSeries id = .ok ds') :
    ds'.epoch = ds.epoch + 1 := by
  obtain ⟨-, -, rfl⟩ := deleteSeries_eq_ok hs
  rfl

/-- The other operations leave the epoch as it is. -/
theorem epoch_modifySeries {ds ds' : Dataset} {id : Nat} {f : Series → Series}
    (hs : ds.modifySeries id f = .ok ds') : ds'.epoch = ds.epoch := by
  obtain ⟨-, old, -, rfl⟩ := modifySeries_eq_ok hs
  rfl

/-- No editing operation takes the epoch back. -/
theorem Edit.epoch_le {ds ds' : Dataset} : Edit ds ds' → ds.epoch ≤ ds'.epoch := by
  intro he
  cases he with
  | setSample hs =>
    obtain ⟨-, -, rfl⟩ := setSample_eq_ok hs
    exact Nat.le_refl _
  | fullSample => exact Nat.le_refl _
  | setShape hs =>
    obtain ⟨rfl, -⟩ := setShape_eq_ok hs
    exact Nat.le_refl _
  | resize hs => rw [epoch_resize hs]; exact Nat.le_succ _
  | addSeries hs =>
    obtain ⟨-, -, -, -, rfl⟩ := addSeries_eq_ok hs
    exact Nat.le_refl _
  | renameSeries hs => rw [epoch_renameSeries hs]; exact Nat.le_succ _
  | deleteSeries hs => rw [epoch_deleteSeries hs]; exact Nat.le_succ _
  | setMarkers hs =>
    obtain ⟨-, rfl⟩ := setMarkers_eq_ok hs
    exact Nat.le_refl _
  | write _ hs => exact Nat.le_of_eq (epoch_modifySeries hs).symm
  | writeValues _ hs => exact Nat.le_of_eq (epoch_modifySeries hs).symm

/-! ## Well-formed datasets, always -/

/-- **The editing operations keep a dataset well-formed.** Every dataset reached from a new one
by editing has one value per observation in every series, `const` all ones at position `0`,
distinct names that `lookup` finds exactly, markers for every observation, a sample within the
observations (`0..0` when there are none), and periods in a panel with observations; no edit
takes the epoch back, and resizing, renaming and deleting move it on. An operation that fails
returns its error and no dataset, so the caller's dataset stays as it was. -/
theorem edits_keep_wellFormed :
    (∀ ds : Dataset, Reachable ds → ds.WellFormed ∧
      ∀ name id, ds.lookup name = some id ↔ ∃ s, ds.get? id = some s ∧ s.name = name) ∧
    (∀ ds ds' : Dataset, Edit ds ds' → ds.epoch ≤ ds'.epoch) ∧
    (∀ (ds ds' : Dataset) (n : Nat), ds.resize n = .ok ds' → ds.epoch < ds'.epoch) ∧
    (∀ (ds ds' : Dataset) (id : Nat) (name : String),
      ds.renameSeries id name = .ok ds' → ds.epoch < ds'.epoch) ∧
    (∀ (ds ds' : Dataset) (id : Nat), ds.deleteSeries id = .ok ds' → ds.epoch < ds'.epoch) := by
  refine ⟨fun ds hr => ?_, fun _ _ he => he.epoch_le, fun _ _ _ hs => ?_, fun _ _ _ _ hs => ?_,
    fun _ _ _ hs => ?_⟩
  · exact ⟨hr.wellFormed, fun _ _ => lookup_eq_some_iff hr.indexed.agrees⟩
  · rw [epoch_resize hs]
    exact Nat.lt_succ_self _
  · rw [epoch_renameSeries hs]
    exact Nat.lt_succ_self _
  · rw [epoch_deleteSeries hs]
    exact Nat.lt_succ_self _

/-- A new dataset of two observations is well-formed, and `lookup` finds `const` first. -/
theorem create_two_wellFormed :
    Reachable (create 2) ∧ (create 2).WellFormed ∧ (create 2).lookup "const" = some 0 :=
  ⟨.create 2, (edits_keep_wellFormed.1 _ (.create 2)).1,
    ((edits_keep_wellFormed.1 _ (.create 2)).2 "const" 0).2 ⟨_, rfl, rfl⟩⟩

end Dataset

end SeriesCalc
