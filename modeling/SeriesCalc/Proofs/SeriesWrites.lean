import Mathlib
import SeriesCalc.Proofs.Write
import SeriesCalc.Proofs.SeriesConditional
import SeriesCalc.Proofs.NestedWrites
import SeriesCalc.Proofs.Values.Kinds
import SeriesCalc.Proofs.Values.Blocks
import SeriesCalc.Proofs.ShortCircuit

/-!
# Writes to a dataset series

A dataset series is written over the sample when assigned whole, and at one observation when
subscripted. The right-hand side is a number, a series or a column lined up against the
observations (`Column.of?`), combined with the value each observation held under the
assignment operator (`Kernel.assign`); a series with category labels also takes a string under
plain `=`, which stands for its code in the series' table (`Categories.intern`).

* `Series.WrittenOver s s' obs v`: `s'` is `s` with the observations of `obs` that `s` stores
  set to `v t`, and nothing else changed. A fold that writes each position of a list without
  repeats from the value the position held is such a write (`getElem?_foldl_set_getD`); the
  sample has no repeats (`Dataset.sampleRange_nodup`).
* `Assign.SampleWritten`, `Assign.ObservationWritten`: what a whole and a one-observation write
  make of the series, read off the program by `writeSeries_eq_ok` and `writeObs_eq_ok`, which
  follow a successful run through its checks (`WriteM.exec_bind_eq_ok`).
* **`series_assign_writes_addressed_observations`**: a successful write changes the addressed
  observations of its series as above, and nothing else but the modified flag and the log.
-/

namespace SeriesCalc

/-- `s'` is `s` with every observation of `obs` that `s` stores set to `v t`, and every other
observation as it was. -/
def Series.WrittenOver (s s' : Series) (obs : List Nat) (v : Nat → Float) : Prop :=
  s'.name = s.name ∧
    ∀ t, s'.values[t]? = if t ∈ obs then (s.values[t]?).map (fun _ => v t) else s.values[t]?

theorem Dataset.sampleRange_nodup (ds : Dataset) : ds.sampleRange.Nodup := by
  unfold Dataset.sampleRange
  split
  · exact List.nodup_nil
  · exact (List.nodup_range).sublist (List.drop_sublist _ _)

/-- Writing `g t` of the stored value at each position of a list without repeats: each position
of the list is computed from the value it had before, every other position is kept. -/
theorem getElem?_foldl_set_getD (g : Nat → Float → Float) :
    ∀ (l : List Nat), l.Nodup → ∀ (a : Array Float) (i : Nat),
      (l.foldl (fun acc t => acc.set! t (g t (acc.getD t NA))) a)[i]? =
        if i ∈ l then (a[i]?).map fun _ => g i (a.getD i NA) else a[i]?
  | [], _, a, i => by simp
  | t :: l, hnd, a, i => by
    rw [List.nodup_cons] at hnd
    rw [List.foldl_cons, getElem?_foldl_set_getD g l hnd.2]
    simp only [Array.set!_eq_setIfInBounds, Array.getElem?_setIfInBounds, List.mem_cons]
    by_cases hti : t = i
    · subst hti
      by_cases hs : t < a.size <;> simp [hs, hnd.1, Array.getD_eq_getD_getElem?]
    · by_cases hil : i ∈ l
      · simp [hti, Ne.symm hti, hil, Array.getD_eq_getD_getElem?]
      · simp [hti, Ne.symm hti, hil]

namespace WriteM

variable {α β : Type} {ws ws' : Workspace}

/-- A sequence that returns ran its first step to a value and the rest from there. -/
theorem exec_bind_eq_ok {x : WriteM α} {f : α → WriteM β} {b : β}
    (h : (x >>= f).exec ws = (.ok b, ws')) :
    ∃ a ws₁, x.exec ws = (.ok a, ws₁) ∧ (f a).exec ws₁ = (.ok b, ws') := by
  rw [exec_bind] at h
  rcases hx : x.exec ws with ⟨_ | a, ws₁⟩
  · rw [hx] at h
    cases h
  · rw [hx] at h
    exact ⟨a, ws₁, rfl, h⟩

theorem fail_bind_ne_ok {f : Fault} {g : α → WriteM β} {b : β} :
    (fail f >>= g).exec ws ≠ (.ok b, ws') := by
  intro h
  obtain ⟨_, _, h₁, -⟩ := exec_bind_eq_ok h
  cases h₁

theorem fail_ne_ok {f : Fault} {b : α} : (fail f : WriteM α).exec ws ≠ (.ok b, ws') := by
  intro h
  cases h

/-- Reaching a series for writing succeeds on a series other than `const`, and only marks the
dataset modified. -/
theorem writableSeries_eq_ok {sid : Nat} {s : Series} (h : (writableSeries sid).exec ws = (.ok s, ws')) :
    sid ≠ 0 ∧ ws.dataset.series[sid]? = some s ∧
      ws' = { ws with dataset := { ws.dataset with modified := true } } := by
  unfold writableSeries at h
  obtain ⟨ds, ws₁, h₁, h⟩ := exec_bind_eq_ok h
  rw [exec_dataset] at h₁
  cases h₁
  by_cases h0 : sid = 0
  · rw [if_pos (by simp [h0])] at h
    exact absurd h fail_bind_ne_ok
  · rw [if_neg (by simp [h0])] at h
    refine ⟨h0, ?_⟩
    split at h
    · cases h
    · rename_i s' hs'
      obtain ⟨_, ws₂, h₂, h⟩ := exec_bind_eq_ok h
      rw [exec_modify] at h₂
      cases h₂
      cases h
      exact ⟨hs', rfl⟩

theorem putSeries_exec (sid : Nat) (s : Series) :
    (putSeries sid s).exec ws =
      (.ok (), { ws with dataset := { ws.dataset with series := ws.dataset.series.set! sid s } }) :=
  rfl

/-- Recording a warning changes only the log. -/
theorem note_exec (ws : Workspace) (w : Option Warning) : ∃ log, (note w).exec ws = (.ok (), { ws with warnings := log }) := by
  cases w with
  | none => exact ⟨ws.warnings, rfl⟩
  | some w => exact ⟨_, rfl⟩

/-- Writing observations one after another, each computed from the value it replaces and
recording its warning: the result is the plain fold, and only the log changes. -/
theorem foldlM_assign_exec (col : Column) (op : AssignOp) :
    ∀ (l : List Nat) (xs : Array Float) (ws : Workspace), ∃ log,
      (l.foldlM (fun (xs : Array Float) t => do
          note (Kernel.assign (xs.getD t NA) (col.at t) op).2
          pure (xs.set! t (Kernel.assign (xs.getD t NA) (col.at t) op).1)) xs).exec ws =
        (.ok (l.foldl (fun (xs : Array Float) t => xs.set! t (Kernel.assign (xs.getD t NA) (col.at t) op).1) xs),
          { ws with warnings := log })
  | [], xs, ws => ⟨ws.warnings, rfl⟩
  | t :: l, xs, ws => by
    obtain ⟨log₁, h₁⟩ := note_exec ws (Kernel.assign (xs.getD t NA) (col.at t) op).2
    obtain ⟨log, h⟩ := foldlM_assign_exec col op l
      (xs.set! t (Kernel.assign (xs.getD t NA) (col.at t) op).1) { ws with warnings := log₁ }
    refine ⟨log, ?_⟩
    rw [List.foldlM_cons, List.foldl_cons, exec_bind, exec_bind, h₁]
    exact h

end WriteM

/-- An operator that passes the program's test for "other than plain `=`" as false is `=`. -/
theorem AssignOp.eq_assign_of_not_bne {op : AssignOp} (h : ¬(op != .assign) = true) : op = .assign := by
  revert h
  cases op <;> decide

namespace Assign

open WriteM

/-- What a whole write of `rhs` under `op` makes of the dataset series `s` over the sample of
`ds`: a numeric value lined up against the observations (`Column.of?`) combined at each
observation with the value it replaces, or for a series with category labels under plain `=`
the code of a string, interned into its table. -/
def SampleWritten (ds : Dataset) (op : AssignOp) (rhs : Operand) (s s' : Series) : Prop :=
  (∃ col, Column.of? rhs ds = some col ∧ (s.categories.isSome → op = .assign) ∧
      s'.categories = s.categories ∧
      s.WrittenOver s' ds.sampleRange fun t => (Kernel.assign (s.values.getD t NA) (col.at t) op).1) ∨
  (∃ str tbl, rhs.value = .str str ∧ op = .assign ∧ s.categories = some tbl ∧
      s'.categories = some (tbl.intern str).1 ∧ s.WrittenOver s' ds.sampleRange fun _ => (tbl.intern str).2)

variable {sid : Nat} {text : String} {op : AssignOp} {rhs : Operand} {target : DeclaredType}
  {ws ws' : Workspace}

/-- A whole write of a dataset series that returns: nothing happened on a dataset without
observations; otherwise the series was not `const`, and it was written over the sample. -/
theorem writeSeries_eq_ok (h : (writeSeries sid text op rhs target).exec ws = (.ok (), ws')) :
    (ws.dataset.nobs = 0 ∧ ws' = ws) ∨
      (sid ≠ 0 ∧ ∃ s s' log, ws.dataset.series[sid]? = some s ∧
        ws' = { ws with dataset := { ws.dataset with modified := true,
                                                     series := ws.dataset.series.set! sid s' },
                        warnings := log } ∧
        SampleWritten ws.dataset op rhs s s') := by
  unfold writeSeries at h
  extract_lets rest check at h
  -- the declared type and the operator pass their checks
  have hrest : (rest ()).exec ws = (.ok (), ws') := by
    have hcheck : (check ()).exec ws = (.ok (), ws') := by
      split at h
      · exact h
      · exact h
      · exact absurd h fail_bind_ne_ok
    dsimp only [check] at hcheck
    split at hcheck
    · exact absurd hcheck fail_bind_ne_ok
    · exact absurd hcheck fail_bind_ne_ok
    · exact absurd hcheck fail_bind_ne_ok
    · exact hcheck
  dsimp only [rest] at hrest
  obtain ⟨ds, ws₁, h₁, hrest⟩ := exec_bind_eq_ok hrest
  rw [exec_dataset] at h₁
  cases h₁
  by_cases hn : ws.dataset.nobs = 0
  · -- no observations: nothing is written
    rw [if_pos (by simp [hn])] at hrest
    cases hrest
    exact .inl ⟨hn, rfl⟩
  right
  rw [if_neg (by simp [hn])] at hrest
  split at hrest
  · -- a string names a category of a series with category labels, under plain `=` only
    rename_i str hstr
    obtain ⟨series, ws₂, h₂, hrest⟩ := exec_bind_eq_ok hrest
    obtain ⟨h0, hs, rfl⟩ := writableSeries_eq_ok h₂
    split at hrest
    · exact absurd hrest fail_ne_ok
    rename_i tbl htbl
    by_cases hop : (op != .assign) = true
    · rw [if_pos hop] at hrest
      exact absurd hrest fail_bind_ne_ok
    rw [if_neg hop, putSeries_exec] at hrest
    cases hrest
    have hplain : op = .assign := AssignOp.eq_assign_of_not_bne hop
    refine ⟨h0, series, _, ws.warnings, hs, rfl,
      .inr ⟨str, tbl, hstr, hplain, htbl, rfl, rfl, fun t => ?_⟩⟩
    exact getElem?_foldl_set_getD (fun _ _ => (tbl.intern str).2) _
      (Dataset.sampleRange_nodup _) _ t
  · -- a number, a series or a column, lined up against the observations
    split at hrest
    · rename_i col hcol
      obtain ⟨c, ws₂, h₂, hrest⟩ := exec_bind_eq_ok hrest
      cases h₂
      obtain ⟨series, ws₃, h₃, hrest⟩ := exec_bind_eq_ok hrest
      obtain ⟨h0, hs, rfl⟩ := writableSeries_eq_ok h₃
      by_cases hcat : (series.categories.isSome && op != .assign) = true
      · rw [if_pos hcat] at hrest
        exact absurd hrest fail_bind_ne_ok
      rw [if_neg hcat] at hrest
      obtain ⟨values, ws₄, h₄, hrest⟩ := exec_bind_eq_ok hrest
      obtain ⟨log, hlog⟩ := foldlM_assign_exec col op ws.dataset.sampleRange series.values
        { ws with dataset := { ws.dataset with modified := true } }
      rw [hlog] at h₄
      cases h₄
      rw [putSeries_exec] at hrest
      cases hrest
      have hplain : series.categories.isSome → op = .assign := by
        intro hsome
        rw [hsome, Bool.true_and] at hcat
        exact AssignOp.eq_assign_of_not_bne hcat
      refine ⟨h0, series, _, log, hs, rfl, .inl ⟨col, hcol, hplain, rfl, rfl, fun t => ?_⟩⟩
      exact getElem?_foldl_set_getD (fun t x => (Kernel.assign x (col.at t) op).1) _
        (Dataset.sampleRange_nodup _) _ t
    · exact absurd hrest fail_bind_ne_ok

/-- What a write of `rhs` under `op` makes of observation `t` of the dataset series `s`: a number
combined with the value it replaces, or for a series with category labels under plain `=` the
code of a string, interned into its table. -/
def ObservationWritten (t : Nat) (op : AssignOp) (rhs : Operand) (s s' : Series) : Prop :=
  (∃ x, s.categories = none ∧ rhs.scalar? = some x ∧ s'.categories = none ∧
      s.WrittenOver s' [t] fun _ => (Kernel.assign (s.values.getD t NA) x op).1) ∨
  (∃ str tbl, rhs.value = .str str ∧ op = .assign ∧ s.categories = some tbl ∧
      s'.categories = some (tbl.intern str).1 ∧ s.WrittenOver s' [t] fun _ => (tbl.intern str).2)

theorem numericElement_eq_ok {x : Float} (h : numericElement rhs op text = .ok x) : rhs.scalar? = some x := by
  unfold numericElement at h
  split at h
  · cases h
  · cases h
  · cases h
  · split at h
    · rename_i y hy
      cases h
      exact hy
    · cases h

/-- A write of one observation of a dataset series that returns: the series was not `const`, and
only that observation was written. -/
theorem writeObs_eq_ok {t : Nat} (h : (writeObs sid t text op rhs).exec ws = (.ok (), ws')) :
    sid ≠ 0 ∧ ∃ s s' log, ws.dataset.series[sid]? = some s ∧
      ws' = { ws with dataset := { ws.dataset with modified := true,
                                                   series := ws.dataset.series.set! sid s' },
                      warnings := log } ∧
      ObservationWritten t op rhs s s' := by
  unfold writeObs at h
  obtain ⟨series, ws₁, h₁, h⟩ := exec_bind_eq_ok h
  obtain ⟨h0, hs, rfl⟩ := writableSeries_eq_ok h₁
  refine ⟨h0, series, ?_⟩
  split at h
  · -- a series with category labels takes the code of a string, under plain `=` only
    rename_i tbl htbl
    extract_lets store at h
    by_cases hop : (op != .assign) = true
    · rw [if_pos hop] at h
      exact absurd h fail_bind_ne_ok
    rw [if_neg hop] at h
    have hplain : op = .assign := AssignOp.eq_assign_of_not_bne hop
    dsimp only [store] at h
    split at h
    · rename_i str hstr
      rw [putSeries_exec] at h
      cases h
      refine ⟨_, ws.warnings, hs, rfl, .inr ⟨str, tbl, hstr, hplain, htbl, rfl, rfl, fun i => ?_⟩⟩
      exact getElem?_foldl_set_getD (fun _ _ => (tbl.intern str).2) [t] (List.nodup_singleton t) _ i
    · exact absurd h fail_ne_ok
  · -- a number combined with the stored value
    rename_i hnone
    obtain ⟨x, ws₂, h₂, h⟩ := exec_bind_eq_ok h
    rw [exec_lift] at h₂
    cases hx : numericElement rhs op text with
    | error e =>
      rw [hx] at h₂
      cases h₂
    | ok y =>
      rw [hx] at h₂
      cases h₂
      generalize hk : Kernel.assign (series.values.getD t NA) x op = r at h
      obtain ⟨y, w⟩ := r
      obtain ⟨log, hlog⟩ := note_exec { ws with dataset := { ws.dataset with modified := true } } w
      obtain ⟨_, ws₃, h₃, h⟩ := exec_bind_eq_ok h
      rw [hlog] at h₃
      cases h₃
      rw [putSeries_exec] at h
      cases h
      refine ⟨_, log, hs, rfl, .inl ⟨x, hnone, numericElement_eq_ok hx, hnone, rfl, fun i => ?_⟩⟩
      rw [hk]
      exact getElem?_foldl_set_getD (fun _ _ => y) [t] (List.nodup_singleton t) _ i

/-- **A write to a dataset series changes only the observations it addresses.** Let `place` be
the dataset series `sid`, holding `s`, and let `place op= rhs` succeed. Written whole, the
series keeps its name and every observation outside the sample, and each observation of the
sample becomes what `op` makes of its old value and the value of `rhs` lined up against it (or
the interned code of a string); the table of category labels gains at most the new string.
Written at one observation, `x[i] op= v` with `i` addressing `t`, only observation `t` changes.
Either way `sid` is not `const`, no other series and no variable changes, and the dataset is
marked modified; a dataset without observations is left alone. -/
theorem series_assign_writes_addressed_observations {place : Place} {s : Series}
    (hroot : place.root = .series sid) (hs : ws.dataset.series[sid]? = some s)
    (hok : (write place op rhs target).exec ws = (.ok (), ws')) :
    (place.steps = [] →
      (ws.dataset.nobs = 0 ∧ ws' = ws) ∨
        (sid ≠ 0 ∧ ∃ s' log,
          ws' = { ws with dataset := { ws.dataset with modified := true,
                                                       series := ws.dataset.series.set! sid s' },
                          warnings := log } ∧
          SampleWritten ws.dataset op rhs s s')) ∧
    (∀ args t, place.steps = [.sub args] → observation ws.dataset args = .ok t →
      sid ≠ 0 ∧ ∃ s' log,
        ws' = { ws with dataset := { ws.dataset with modified := true,
                                                     series := ws.dataset.series.set! sid s' },
                        warnings := log } ∧
        ObservationWritten t op rhs s s') := by
  refine ⟨fun hsteps => ?_, fun args t hsteps hobs => ?_⟩
  · -- the whole series
    have hw : (writeSeries sid place.text op rhs target).exec ws = (.ok (), ws') := by
      unfold write at hok
      rw [if_pos (by simp [hsteps])] at hok
      unfold whole at hok
      simp only [hroot] at hok
      exact hok
    rcases writeSeries_eq_ok hw with hzero | ⟨h0, s₀, s', log, hs₀, hws, hw⟩
    · exact .inl hzero
    · rw [hs] at hs₀
      cases hs₀
      exact .inr ⟨h0, s', log, hws, hw⟩
  · -- one observation
    have hw : (writeObs sid t place.text op rhs).exec ws = (.ok (), ws') := by
      unfold write at hok
      rw [if_neg (by simp [hsteps])] at hok
      unfold nested at hok
      simp only [hroot, hsteps] at hok
      obtain ⟨ds, ws₁, h₁, hok⟩ := exec_bind_eq_ok hok
      rw [exec_dataset] at h₁
      cases h₁
      obtain ⟨t', ws₂, h₂, hok⟩ := exec_bind_eq_ok hok
      rw [exec_lift, hobs] at h₂
      cases h₂
      exact hok
    obtain ⟨h0, s₀, s', log, hs₀, hws, hw⟩ := writeObs_eq_ok hw
    rw [hs] at hs₀
    cases hs₀
    exact ⟨h0, s', log, hws, hw⟩

/-- `x = 5`. -/
def xGetsFive : Place := ⟨.series 1, [], "x"⟩

/-- `x = 5` over two observations writes 5 at both and keeps the series' name. -/
theorem x_gets_five_over_sample :
    ∃ s' log, ((write xGetsFive .assign { value := .scalar 5 } .any).exec seriesXWs).2 =
        { seriesXWs with
          dataset := { seriesXWs.dataset with modified := true, series := seriesXWs.dataset.series.set! 1 s' },
          warnings := log } ∧
      SampleWritten seriesXWs.dataset .assign { value := .scalar 5 } ⟨"x", #[1, 2], none⟩ s' := by
  have hok : (write xGetsFive .assign { value := .scalar 5 } .any).exec seriesXWs =
      (.ok (), ((write xGetsFive .assign { value := .scalar 5 } .any).exec seriesXWs).2) := rfl
  rcases (series_assign_writes_addressed_observations rfl rfl hok).1 rfl with hzero | ⟨-, hw⟩
  · exact absurd hzero.1 (by decide)
  · exact hw

end Assign

end SeriesCalc
