import SeriesCalc.Proofs.Dataset.Labels

/-!
# Shape arithmetic in words

Observation numbers and shapes are words, and the dataset computes with them as words: a panel
shape is checked with the wrapping product of units and periods, and a label adds one to an
observation or to its unit, and a period count to a start year, with wrapping sums. This module
says exactly where that arithmetic agrees with the unbounded one.

* `setShape_panel_ok_iff`: a panel shape is accepted when `units · periods` and the
  observation count agree modulo `2^64`, which below `2^64` is the product itself.
* `exactLabel`: the label of an observation computed with unbounded numbers, and `labelFits`:
  whether the numbers of the computed label are words (`t + 1` and `t / periods + 1` below
  `2^64`, the year in the signed 64-bit range).
* `obsLabel_eq_exactLabel_iff`: a label is the unbounded one exactly when its numbers fit.
* `nobs_eq_zero_of_labelUndefined`: a label divides by zero only on a panel of zero periods,
  which a reachable dataset has only without observations.
* **`panel_check_and_labels_follow_words`**: the four together.
-/

namespace SeriesCalc

namespace Word

/-- A word's successor is the successor exactly when that is a word. -/
theorem add_one_eq_iff {t : Nat} : add t 1 = t + 1 ↔ t + 1 < modulus := by
  unfold add wrap
  rw [modulus_eq]
  omega

/-- A signed number survives wrapping exactly when it lies in the signed range. -/
theorem wrapSigned_eq_self_iff {i : Int} : wrapSigned i = i ↔ fitsSigned i = true := by
  unfold wrapSigned signed wrap fitsSigned
  rw [modulus_eq, half_eq]
  simp only [Bool.and_eq_true, decide_eq_true_eq]
  split <;> omega

/-- Reading a word as signed before adding it changes nothing once the sum is wrapped. -/
theorem wrapSigned_add_signed (start : Int) {q : Nat} (hq : q < modulus) :
    wrapSigned (start + signed q) = wrapSigned (start + q) := by
  rw [modulus_eq] at hq
  unfold wrapSigned signed wrap
  rw [modulus_eq, half_eq]
  simp only
  split <;> split <;> split <;> omega

end Word

namespace Dataset

/-! ## The panel check -/

/-- A panel shape is accepted exactly when units times periods, wrapped to a word, is the
observation count. -/
theorem setShape_panel_ok_iff (ds : Dataset) (u p : Nat) :
    (∃ ds', ds.setShape (.panel u p) = .ok ds') ↔ u * p % Word.modulus = ds.nobs := by
  simp only [Dataset.setShape, Word.mul, Word.wrap]
  -- the check sits under the binder of the result, so decide it first
  by_cases h : u * p % Word.modulus = ds.nobs
  · simp [h]
  · simp only [h, bne_iff_ne, ne_eq, not_false_eq_true, ↓reduceIte, iff_false]
    rintro ⟨_, hc⟩
    cases hc

/-- Below `2^64` the check is the unbounded one. -/
theorem setShape_panel_ok_iff_of_lt (ds : Dataset) {u p : Nat} (h : u * p < Word.modulus) :
    (∃ ds', ds.setShape (.panel u p) = .ok ds') ↔ u * p = ds.nobs := by
  rw [setShape_panel_ok_iff, Nat.mod_eq_of_lt h]

/-! ## Labels with unbounded numbers -/

/-- The label of observation `t` computed with unbounded numbers: the marker, else `t + 1`, the
year `start + t / pd` with its period, or `unit:period`. -/
def exactLabel (ds : Dataset) (t : Nat) : String :=
  match ds.markers.bind (·[t]?) with
  | some m => m
  | none =>
    match ds.shape with
    | .cross => toString (t + 1)
    | .time pd start =>
      let year : Int := start + (t / pd : Nat)
      let sub := t % pd + 1
      if pd == 1 then toString year
      else if pd ≤ 9 then s!"{year}:{sub}"
      else toString year ++ ":" ++ twoDigits sub
    | .panel _ p => s!"{t / p + 1}:{t % p + 1}"

/-- Whether the numbers of `t`'s computed label are words: a marker has none, `t + 1` and the
unit number `t / periods + 1` must stay below `2^64`, the year `start + t / pd` within the
signed range. -/
def labelFits (ds : Dataset) (t : Nat) : Bool :=
  (ds.markers.bind (·[t]?)).isSome ||
    match ds.shape with
    | .cross => Word.fits (t + 1)
    | .time pd start => Word.fitsSigned (start + (t / pd : Nat))
    | .panel _ p => Word.fits (t / p + 1)

/-- Numerals of words agree with the unbounded numeral of a successor exactly when it fits. -/
theorem toString_add_one_eq_iff {n : Nat} :
    toString (Word.add n 1) = toString (n + 1) ↔ Word.fits (n + 1) = true := by
  simp only [Word.fits, decide_eq_true_eq, ← Word.add_one_eq_iff, Nat.toString_eq_repr]
  exact ⟨fun h => Nat.repr_injective h, fun h => h ▸ rfl⟩

/-- The three forms of a time-series label tell their years apart. -/
theorem timeText_eq_iff {pd sub : Nat} {y z : Int} :
    (if pd == 1 then toString y else if pd ≤ 9 then s!"{y}:{sub}" else toString y ++ ":" ++ twoDigits sub) =
      (if pd == 1 then toString z else if pd ≤ 9 then s!"{z}:{sub}" else toString z ++ ":" ++ twoDigits sub) ↔
      y = z := by
  refine ⟨fun h => ?_, fun h => h ▸ rfl⟩
  split at h
  · exact Int.repr_injective h
  · split at h
    · exact Int.repr_injective (eq_of_colon_append (colon_not_mem_intRepr _) (colon_not_mem_intRepr _) h).1
    · exact Int.repr_injective (eq_of_colon_append (colon_not_mem_intRepr _) (colon_not_mem_intRepr _) h).1

/-- A `unit:period` label tells its unit numbers apart. -/
theorem unitText_eq_iff {a b c : Nat} : s!"{a}:{c}" = s!"{b}:{c}" ↔ a = b := by
  refine ⟨fun h => ?_, fun h => h ▸ rfl⟩
  have hsplit := (eq_of_colon_append (by rw [Nat.toString_eq_repr]; exact colon_not_mem_repr _)
    (by rw [Nat.toString_eq_repr]; exact colon_not_mem_repr _) h).1
  simp only [Nat.toString_eq_repr] at hsplit
  exact Nat.repr_injective hsplit

/-- The year of a time-series label is the unbounded one exactly when that lies in the signed
range. -/
theorem year_eq_iff (start : Int) {q : Nat} (hq : q < Word.modulus) :
    Word.wrapSigned (start + Word.signed q) = start + q ↔ Word.fitsSigned (start + q) = true := by
  rw [Word.wrapSigned_add_signed start hq, Word.wrapSigned_eq_self_iff]

/-- **A label is the unbounded one exactly when its numbers fit their words.** For every
observation number `t` that is a word (`t ≥ nobs` included), the computed label equals the
label with unbounded numbers if and only if `t + 1`, the unit number or the year does not
wrap. -/
theorem obsLabel_eq_exactLabel_iff (ds : Dataset) {t : Nat} (ht : t < Word.modulus) :
    ds.obsLabel t = ds.exactLabel t ↔ ds.labelFits t = true := by
  unfold obsLabel exactLabel labelFits
  cases hm : ds.markers.bind (·[t]?) with
  | some m => simp
  | none =>
    simp only [Option.isSome_none, Bool.false_or]
    cases hs : ds.shape with
    | cross => exact toString_add_one_eq_iff
    | time pd start =>
      simp only
      rw [timeText_eq_iff]
      exact year_eq_iff start (lt_of_le_of_lt (Nat.div_le_self t pd) ht)
    | panel u p =>
      simp only
      rw [unitText_eq_iff]
      simp only [Word.fits, decide_eq_true_eq]
      exact Word.add_one_eq_iff

/-! ## Division by zero -/

/-- Only a panel of zero periods leaves a label undefined, and a reachable dataset is such a
panel only when it has no observations. -/
theorem nobs_eq_zero_of_labelUndefined {ds : Dataset} (hr : Reachable ds) {t : Nat}
    (h : ds.labelUndefined t = true) : ds.nobs = 0 := by
  unfold labelUndefined at h
  simp only [Bool.and_eq_true, Option.isNone_iff_eq_none] at h
  obtain ⟨-, hp⟩ := h
  cases hs : ds.shape with
  | cross => simp [hs] at hp
  | time pd start => simp [hs] at hp
  | panel u p =>
    simp only [hs, beq_iff_eq] at hp
    -- a panel with observations has periods
    by_contra hn
    have := hr.wellFormed.periods u p hs (Nat.pos_of_ne_zero hn)
    omega

/-- **Shapes and labels follow word arithmetic.** For all units `u` and periods `p`, a new
dataset of `n` observations takes the panel shape, and any dataset `ds` is given it, exactly when
`u · p` is the observation count modulo `2^64` (so `2^32` units of `2^32` periods fit an empty
dataset); on a reachable dataset a label divides by zero only when there are no observations;
and the label of every word `t` is the one computed with unbounded numbers exactly when those
numbers fit their words. -/
theorem panel_check_and_labels_follow_words (u p : Nat) (ds : Dataset) (t : Nat) :
    (∀ n : Nat, (∃ ds', withShape n (.panel u p) = .ok ds') ↔ u * p % Word.modulus = n) ∧
    ((∃ ds', ds.setShape (.panel u p) = .ok ds') ↔ u * p % Word.modulus = ds.nobs) ∧
    (Reachable ds → ds.labelUndefined t = true → ds.nobs = 0) ∧
    (t < Word.modulus → (ds.obsLabel t = ds.exactLabel t ↔ ds.labelFits t = true)) :=
  ⟨fun n => setShape_panel_ok_iff (create n) u p, setShape_panel_ok_iff ds u p,
    fun hr h => nobs_eq_zero_of_labelUndefined hr h, fun ht => obsLabel_eq_exactLabel_iff ds ht⟩

/-- An empty dataset takes `2^32` units of `2^32` periods, an empty panel of zero periods
leaves its labels undefined, and the last word `2^64 - 1` is labelled `0` on a cross-section,
not `2^64`. -/
theorem wrapped_shapes_and_labels :
    (∃ ds, withShape 0 (.panel 4294967296 4294967296) = .ok ds) ∧
    (∃ ds, withShape 0 (.panel 3 0) = .ok ds ∧ ds.labelUndefined 0 = true ∧ ds.nobs = 0) ∧
    ((18446744073709551615 : Nat) < Word.modulus ∧
      (create 0).obsLabel 18446744073709551615 ≠ (create 0).exactLabel 18446744073709551615) := by
  have hempty : withShape 0 (.panel 3 0) = .ok { create 0 with shape := .panel 3 0 } := rfl
  have hwide := (panel_check_and_labels_follow_words 4294967296 4294967296 (create 0) 0).1 0
  have hzero := panel_check_and_labels_follow_words 3 0 { create 0 with shape := .panel 3 0 } 0
  have hlast := panel_check_and_labels_follow_words 0 0 (create 0) 18446744073709551615
  refine ⟨hwide.2 (by decide), ⟨_, hempty, by decide, hzero.2.2.1 (.withShape hempty) (by decide)⟩,
    by decide, fun heq => ?_⟩
  have hfits := (hlast.2.2.2 (by decide)).1 heq
  revert hfits
  decide

end Dataset

end SeriesCalc
