import Mathlib
import SeriesCalc.Proofs.Dataset.WellFormed
import SeriesCalc.Eval.Assign

/-!
# Observation labels

Every observation has a label (`Dataset.obsLabel`): its marker when the dataset has markers,
else a text computed from the shape: `t+1` for a cross-section, the year, `year:sub` or
`year:ss` for a time series, `unit:period` for a panel. `Dataset.findObs` looks a label up,
among the markers first. `Dataset.labels` lists the labels in observation order.

* `findObs_eq_find`: with one marker per observation, a lookup is the search for the first
  observation that bears the label.
* `computed_labels_inj`: labels computed from any shape never repeat below `2^63`
  observations. A year or a unit number is a decimal numeral, so the colon splits a label into
  its parts (`eq_of_colon_append`), and each part gives back its number.
* `labels_nodup`: a well-formed dataset with distinct markers, or none, has distinct labels.
* **`labels_decode_to_observation`**: on every reachable dataset a label finds the first
  observation that bears it; when the markers are distinct (or absent) that is the observation
  itself, and `x["label"]` reads and writes observation `t` exactly when the label is `t`'s.
* `resize_pads_marker_into_duplicate`: resizing pads the markers with numerals `t+1`, which
  may repeat a distinct marker installed before: then the label of the new observation finds
  the old one.
-/

namespace SeriesCalc

namespace Word

theorem modulus_eq : modulus = 18446744073709551616 := rfl

theorem half_eq : half = 9223372036854775808 := rfl

/-- Below the top of the signed range a successor does not wrap. -/
theorem add_one_of_lt {t : Nat} (h : t < half) : add t 1 = t + 1 := by
  rw [half_eq] at h
  unfold add wrap
  rw [modulus_eq]
  omega

/-- A word below `2^63` reads as itself when signed. -/
theorem signed_of_lt {n : Nat} (h : n < half) : signed n = n := by
  rw [half_eq] at h
  unfold signed wrap
  rw [modulus_eq, half_eq]
  simp only
  split <;> omega

/-- Offsets below `2^63` from one start stay apart once wrapped into the signed range. -/
theorem wrapSigned_add_inj {start : Int} {q q' : Nat} (hq : q < half) (hq' : q' < half)
    (h : wrapSigned (start + q) = wrapSigned (start + q')) : q = q' := by
  rw [half_eq] at hq hq'
  unfold wrapSigned signed wrap at h
  rw [modulus_eq, half_eq] at h
  simp only at h
  split at h <;> split at h <;> omega

end Word

/-! ## Numerals and separators -/

/-- A decimal numeral has no colon. -/
theorem colon_not_mem_repr (n : Nat) : ':' ∉ n.repr.toList := by
  rw [Nat.toList_repr]
  intro h
  have := Nat.isDigit_of_mem_toDigits (by decide) (by decide) h
  revert this
  decide

/-- Nor has a signed one. -/
theorem colon_not_mem_intRepr (i : Int) : ':' ∉ (toString i).toList := by
  rw [Int.toString_eq_repr, Int.repr_eq_if]
  split
  · exact colon_not_mem_repr _
  · rw [String.toList_append]
    intro h
    rcases List.mem_append.1 h with h | h
    · revert h
      decide
    · exact colon_not_mem_repr _ h

/-- A separator splits two texts the same way when neither first part holds it. -/
theorem eq_of_append_cons_eq {x : Char} : ∀ {a c b d : List Char}, x ∉ a → x ∉ c →
    a ++ x :: b = c ++ x :: d → a = c ∧ b = d
  | [], [], _, _, _, _, h => ⟨rfl, by simpa using h⟩
  | [], y :: c, _, _, _, hc, h => by
    simp only [List.nil_append, List.cons_append, List.cons.injEq] at h
    exact absurd (h.1 ▸ List.mem_cons_self) hc
  | y :: a, [], _, _, ha, _, h => by
    simp only [List.nil_append, List.cons_append, List.cons.injEq] at h
    exact absurd (h.1 ▸ List.mem_cons_self) ha
  | y :: a, z :: c, _, _, ha, hc, h => by
    simp only [List.cons_append, List.cons.injEq] at h
    obtain ⟨rfl, h⟩ := h
    obtain ⟨rfl, rfl⟩ := eq_of_append_cons_eq (fun hx => ha (List.mem_cons_of_mem _ hx))
      (fun hx => hc (List.mem_cons_of_mem _ hx)) h
    exact ⟨rfl, rfl⟩

/-- `a:b` and `c:d` agree part by part when `a` and `c` hold no colon. -/
theorem eq_of_colon_append {a b c d : String} (ha : ':' ∉ a.toList) (hc : ':' ∉ c.toList)
    (h : a ++ ":" ++ b = c ++ ":" ++ d) : a = c ∧ b = d := by
  rw [← String.toList_inj] at h
  simp only [String.toList_append] at h
  have hsplit := eq_of_append_cons_eq ha hc (by simpa using h)
  exact ⟨String.toList_inj.1 hsplit.1, String.toList_inj.1 hsplit.2⟩

namespace Dataset

/-- The two-digit form keeps the number: its digits read back as it, a leading zero
included. -/
theorem twoDigits_injective : Function.Injective twoDigits := by
  have hread : ∀ n, Nat.ofDigitChars 10 (twoDigits n).toList 0 = n := by
    intro n
    unfold twoDigits
    split
    · rw [String.toList_append, Nat.toString_eq_repr, Nat.toList_repr]
      simpa [Nat.ofDigitChars] using Nat.ofDigitChars_ten_toDigits (n := n)
    · rw [Nat.toString_eq_repr, Nat.toList_repr, Nat.ofDigitChars_ten_toDigits]
  intro m n h
  rw [← hread m, ← hread n, h]

/-- An observation is its block of periods and its place in the block. -/
theorem eq_of_div_mod {s t p : Nat} (hd : s / p = t / p) (hm : s % p = t % p) : s = t := by
  rw [← Nat.div_add_mod s p, ← Nat.div_add_mod t p, hd, hm]

/-- Years of observations below `2^63` differ with their block of periods. -/
theorem year_inj {start : Int} {s t pd : Nat} (hs : s < Word.half) (ht : t < Word.half)
    (h : toString (Word.wrapSigned (start + Word.signed (s / pd))) =
      toString (Word.wrapSigned (start + Word.signed (t / pd)))) : s / pd = t / pd := by
  have hs' : s / pd < Word.half := lt_of_le_of_lt (Nat.div_le_self s pd) hs
  have ht' : t / pd < Word.half := lt_of_le_of_lt (Nat.div_le_self t pd) ht
  rw [Word.signed_of_lt hs', Word.signed_of_lt ht'] at h
  exact Word.wrapSigned_add_inj hs' ht' (Int.repr_injective h)

/-! ## Labels -/

/-- The label of every observation, in order. -/
def labels (ds : Dataset) : List String := (List.range ds.nobs).map ds.obsLabel

variable {ds : Dataset} {s t : Nat}

theorem obsLabel_of_marker {ms : Array String} (hm : ds.markers = some ms) (ht : t < ms.size) :
    ds.obsLabel t = ms[t] := by
  unfold obsLabel
  rw [hm]
  simp [ht]

/-- Labels computed from the shape never repeat below `2^63` observations. -/
theorem computed_labels_inj (hm : ds.markers = none) (hs : s < Word.half) (ht : t < Word.half)
    (h : ds.obsLabel s = ds.obsLabel t) : s = t := by
  unfold obsLabel at h
  rw [hm] at h
  simp only [Option.bind_none] at h
  cases hshape : ds.shape with
  | cross =>
    rw [hshape] at h
    simp only [Nat.toString_eq_repr] at h
    have hnum := Nat.repr_injective h
    rw [Word.add_one_of_lt hs, Word.add_one_of_lt ht] at hnum
    omega
  | time pd start =>
    rw [hshape] at h
    simp only at h
    split at h
    · -- one period a year: the label is the year
      rename_i hpd
      have hq := year_inj hs ht h
      rw [beq_iff_eq] at hpd
      subst hpd
      simpa using hq
    · split at h
      · obtain ⟨hy, hsub⟩ := eq_of_colon_append (colon_not_mem_intRepr _) (colon_not_mem_intRepr _) h
        have hmod : s % pd = t % pd := by
          simp only [Nat.toString_eq_repr] at hsub
          have hnum := Nat.repr_injective hsub
          omega
        exact eq_of_div_mod (year_inj hs ht hy) hmod
      · obtain ⟨hy, hsub⟩ := eq_of_colon_append (colon_not_mem_intRepr _) (colon_not_mem_intRepr _) h
        have hmod : s % pd = t % pd := by
          have hnum := twoDigits_injective hsub
          omega
        exact eq_of_div_mod (year_inj hs ht hy) hmod
  | panel u p =>
    rw [hshape] at h
    obtain ⟨hunit, hper⟩ := eq_of_colon_append
      (by rw [Nat.toString_eq_repr]; exact colon_not_mem_repr _)
      (by rw [Nat.toString_eq_repr]; exact colon_not_mem_repr _) h
    simp only [Nat.toString_eq_repr] at hunit hper
    have hu := Nat.repr_injective hunit
    have hp := Nat.repr_injective hper
    rw [Word.add_one_of_lt (lt_of_le_of_lt (Nat.div_le_self s p) hs),
      Word.add_one_of_lt (lt_of_le_of_lt (Nat.div_le_self t p) ht)] at hu
    exact eq_of_div_mod (p := p) (by omega) (by omega)

/-- A well-formed dataset below `2^63` observations whose markers, if any, are distinct has
distinct labels. -/
theorem labels_nodup (hwf : ds.WellFormed) (hn : ds.nobs < Word.half)
    (hms : ∀ ms ∈ ds.markers, ms.toList.Nodup) : ds.labels.Nodup := by
  refine List.Nodup.map_on (fun s hs t ht h => ?_) List.nodup_range
  rw [List.mem_range] at hs ht
  cases hm : ds.markers with
  | none => exact computed_labels_inj hm (by omega) (by omega) h
  | some ms =>
    -- one marker per observation, so the labels are the markers
    have hsize : ms.size = ds.nobs := hwf.markers ms hm
    rw [obsLabel_of_marker hm (by omega), obsLabel_of_marker hm (by omega)] at h
    have hnd : ms.toList.Nodup := hms ms hm
    have hs' : s < ms.toList.length := by simp; omega
    have ht' : t < ms.toList.length := by simp; omega
    have hget : ms.toList[s] = ms.toList[t] := by simpa using h
    exact (List.Nodup.getElem_inj_iff hnd).1 hget

/-- With one marker per observation, a lookup searches the labels in order. -/
theorem findObs_eq_find (hms : ∀ ms ∈ ds.markers, ms.size = ds.nobs) (label : String) :
    ds.findObs label = (List.range ds.nobs).find? (ds.obsLabel · == label) := by
  unfold findObs
  cases hm : ds.markers with
  | none => rfl
  | some ms =>
    have hsize : ms.size = ds.nobs := hms ms hm
    cases hf : ms.findIdx? (· == label) with
    | none => simp only [Option.bind_some, hf]
    | some t =>
      simp only [Option.bind_some, hf]
      -- the first marker equal to the label is the first label equal to it
      obtain ⟨ht, hp, hbefore⟩ := Array.findIdx?_eq_some_iff_getElem.1 hf
      refine (List.find?_range_eq_some.2 ⟨?_, List.mem_range.2 (by omega), fun j hj => ?_⟩).symm
      · rw [obsLabel_of_marker hm ht]
        exact hp
      · rw [obsLabel_of_marker hm (by omega)]
        simpa using hbefore j hj

/-- A lookup finds the first observation that bears the label: no earlier one bears it. -/
theorem find_label_first (t : Nat) (ht : t < ds.nobs) :
    ∃ s ≤ t, (List.range ds.nobs).find? (ds.obsLabel · == ds.obsLabel t) = some s ∧
      ds.obsLabel s = ds.obsLabel t ∧ ∀ j < s, ds.obsLabel j ≠ ds.obsLabel t := by
  obtain ⟨s, hs⟩ := Option.isSome_iff_exists.1
    (List.find?_isSome (p := (ds.obsLabel · == ds.obsLabel t)).2 ⟨t, List.mem_range.2 ht, by simp⟩)
  obtain ⟨hp, -, hbefore⟩ := List.find?_range_eq_some.1 hs
  refine ⟨s, ?_, hs, by simpa using hp, fun j hj => by simpa using hbefore j hj⟩
  by_contra hlt
  have := hbefore t (by omega)
  simp at this

/-- With distinct labels, the search finds an observation exactly by its label. -/
theorem find_label_iff (hnd : ds.labels.Nodup) (label : String) (t : Nat) :
    (List.range ds.nobs).find? (ds.obsLabel · == label) = some t ↔
      t < ds.nobs ∧ ds.obsLabel t = label := by
  constructor
  · intro h
    obtain ⟨hp, hmem, -⟩ := List.find?_range_eq_some.1 h
    exact ⟨List.mem_range.1 hmem, by simpa using hp⟩
  · rintro ⟨ht, rfl⟩
    refine List.find?_range_eq_some.2 ⟨by simp, List.mem_range.2 ht, fun j hj => ?_⟩
    -- an earlier observation with the same label would be the same observation
    have hne : ds.obsLabel j ≠ ds.obsLabel t := fun h =>
      absurd (List.inj_on_of_nodup_map hnd (List.mem_range.2 (by omega)) (List.mem_range.2 ht) h)
        (by omega)
    simpa using hne

/-- **Labels decode to their observation.** On every dataset the editing operations reach,
below `2^63` observations, looking up the label of observation `t` finds the first observation
that bears it: one at or before `t`, and none before it bears the label. When the markers are distinct, or there are none (labels computed from a
cross-section, time series or panel never repeat), the labels are distinct, the lookup finds
exactly the observation a label belongs to, `x["label"] op= v` addresses observation `t`
exactly when the label is `t`'s, and `x["label"]` reads observation `t` of a series with one
value per observation. -/
theorem labels_decode_to_observation {ds : Dataset} (hr : Reachable ds) (hn : ds.nobs < Word.half) :
    (∀ t < ds.nobs, ∃ s ≤ t, ds.findObs (ds.obsLabel t) = some s ∧ ds.obsLabel s = ds.obsLabel t ∧
      ∀ j < s, ds.obsLabel j ≠ ds.obsLabel t) ∧
    ((∀ ms ∈ ds.markers, ms.toList.Nodup) →
      ds.labels.Nodup ∧ (∀ t < ds.nobs, ds.findObs (ds.obsLabel t) = some t) ∧
      ∀ (label : String) (t : Nat),
        (ds.findObs label = some t ↔ t < ds.nobs ∧ ds.obsLabel t = label) ∧
        (Assign.observation ds [.str label] = .ok t ↔ t < ds.nobs ∧ ds.obsLabel t = label) ∧
        ∀ (xs : Array Float) (h : t < xs.size), xs.size = ds.nobs → ds.obsLabel t = label →
          indexValue (.series xs) [.str label] ds = .ok (.scalar xs[t])) := by
  have hwf := hr.wellFormed
  have hfind := findObs_eq_find hwf.markers
  refine ⟨fun t ht => by rw [hfind]; exact find_label_first t ht, fun hms => ?_⟩
  have hnd := labels_nodup hwf hn hms
  have hiff : ∀ label t, ds.findObs label = some t ↔ t < ds.nobs ∧ ds.obsLabel t = label :=
    fun label t => by rw [hfind]; exact find_label_iff hnd label t
  refine ⟨hnd, fun t ht => (hiff _ t).2 ⟨ht, rfl⟩, fun label t => ⟨hiff label t, ?_, ?_⟩⟩
  · -- a label subscript of a series target is looked up
    rw [← hiff label t]
    unfold Assign.observation
    cases hf : ds.findObs label with
    | none => simp [hf]
    | some s => simp [hf]
  · intro xs h hsize hl
    have hfound := (hiff label t).2 ⟨by omega, hl⟩
    simp only [indexValue, hfound, storedAt, pure_bind, dif_pos h]
    rfl

/-- Six quarters from 1990: the label of the last, `1991:2`, finds it. -/
theorem quarterly_label_decodes :
    ∃ ds, withShape 6 (.time 4 1990) = .ok ds ∧ ds.nobs < Word.half ∧ ds.markers = none ∧
      ds.findObs (ds.obsLabel 5) = some 5 := by
  refine ⟨_, rfl, by decide, rfl, ?_⟩
  have hnone : ∀ ms ∈ ({ create 6 with shape := .time 4 1990 } : Dataset).markers, ms.toList.Nodup := by
    intro ms hms
    cases hms
  exact ((labels_decode_to_observation (@Reachable.withShape 6 (.time 4 1990) _ rfl) (by decide)).2 hnone).2.1 5 (by decide)

/-- The markers `["2"]` installed on one observation, then a resize to two, which pads the
markers with `"2"` for the new observation. -/
def paddedMarkers : Except DataError Dataset :=
  (create 1).setMarkers #["2"] >>= (·.resize 2)

/-- Resizing pads distinct markers with a numeral one of them already is: the new
observation's label then finds the old observation. -/
theorem resize_pads_marker_into_duplicate :
    ∃ ds, paddedMarkers = .ok ds ∧ Reachable ds ∧ ds.nobs = 2 ∧ ds.obsLabel 1 = "2" ∧
      ds.findObs (ds.obsLabel 1) = some 0 :=
  ⟨_, rfl, .edit (.edit (.create 1) (@Edit.setMarkers _ _ #["2"] rfl)) (@Edit.resize _ _ 2 rfl), rfl,
    by decide +kernel, by decide +kernel⟩

end Dataset

end SeriesCalc
