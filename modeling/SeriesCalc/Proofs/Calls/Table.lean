import SeriesCalc.Eval.Workspace

/-!
# The function table between calls

A defined function has a template and a compiled copy. A call checks the compiled copy out of
the table and back in when it returns; a call made while the copy is out (a recursive or
argument-position call of the same function) runs a fresh uncompiled copy of the template, and
that copy is dropped when it comes back.

* `FunctionTable.Settled t`: every entry carries the name it is held under, and its compiled
  copy, when there, is compiled. Setting a compiled copy under its own name keeps it, and so do
  `checkin` (`Settled.checkin`) and `define` (`Settled.define`).
* `FunctionTable.Warm t`: every entry holds its compiled copy. Every table built by defining
  functions is warm and settled (`defineAll_warm_settled`).
* `FunctionTable.Restored t t'`: `t'` names the functions `t` names and, when `t` is settled,
  it is settled and holds every compiled copy that `t` holds. A call that checks a copy out and
  back in restores the table once the body restores it (`Restored.checkout_checkin`), so a
  restored warm table is warm (`Restored.keeps_warm`).
-/

namespace SeriesCalc

namespace UserFunction

@[simp] theorem name_copyWith (f : UserFunction) (compiled : Bool) :
    (f.copyWith compiled).name = f.name := rfl

/-- A copy made compiled is compiled. -/
theorem isCompiled_copyWith_true (f : UserFunction) : (f.copyWith true).isCompiled = true := by
  unfold copyWith isCompiled
  cases f.returns <;> simp [Function.comp_def]

end UserFunction

/-- An entry held under `name`: its template and its compiled copy, when there, carry the name,
and the copy is compiled. -/
def FunctionEntry.Settled (e : FunctionEntry) (name : String) : Prop :=
  e.proto.name = name ∧ ∀ w, e.warm = some w → w.name = name ∧ w.isCompiled = true

namespace FunctionTable

/-- The names of the entries, in the table's order. -/
def keys (t : FunctionTable) : List String := t.entries.map (·.1)

/-- Every entry is settled under its name. -/
def Settled (t : FunctionTable) : Prop := ∀ name e, t.find? name = some e → e.Settled name

/-- Every entry holds its compiled copy: no call has it. -/
def Warm (t : FunctionTable) : Prop := ∀ name e, t.find? name = some e → e.warm.isSome = true

theorem find?_isSome_iff (t : FunctionTable) (name : String) :
    (t.find? name).isSome = true ↔ name ∈ t.keys := by
  obtain ⟨es⟩ := t
  simp only [find?, keys]
  induction es with
  | nil => simp
  | cons p es ih =>
    obtain ⟨k, e⟩ := p
    rw [List.lookup_cons, List.map_cons, List.mem_cons]
    cases h : name == k with
    | true => simp [beq_iff_eq.mp h]
    | false =>
      have hne : name ≠ k := fun h' => by simp [h'] at h
      simp only [ih, hne, false_or]

/-- Setting the compiled copy of `name` changes only the entry under `name`. -/
theorem find?_setWarm (t : FunctionTable) (name : String) (w : Option UserFunction) (n : String) :
    (t.setWarm name w).find? n =
      (t.find? n).map fun e => if n = name then { e with warm := w } else e := by
  obtain ⟨es⟩ := t
  simp only [find?, setWarm]
  induction es with
  | nil => rfl
  | cons p es ih =>
    obtain ⟨k, e⟩ := p
    -- the mapped entry keeps its key, so the lookup stops where it stopped before
    by_cases hk : k = name
    · subst hk
      simp only [List.map_cons, beq_self_eq_true, if_true, List.lookup_cons]
      cases h : n == k with
      | true => simp [beq_iff_eq.mp h]
      | false => simpa [h] using ih
    · have hk' : (k == name) = false := by simpa using hk
      simp only [List.map_cons, hk', Bool.false_eq_true, if_false, List.lookup_cons]
      cases h : n == k with
      | true =>
        obtain rfl := beq_iff_eq.mp h
        simp [hk]
      | false => simpa [h] using ih

theorem keys_setWarm (t : FunctionTable) (name : String) (w : Option UserFunction) :
    (t.setWarm name w).keys = t.keys := by
  simp only [keys, setWarm, List.map_map]
  congr 1
  funext p
  simp only [Function.comp_apply]
  split <;> rfl

theorem keys_checkin (t : FunctionTable) (f : UserFunction) : (t.checkin f).keys = t.keys := by
  unfold checkin
  split
  · rfl
  · split
    · split
      · exact keys_setWarm _ _ _
      · rfl
    · rfl

/-- Setting a compiled copy that carries the entry's name, or none, keeps the table settled. -/
theorem Settled.setWarm {t : FunctionTable} (h : t.Settled) {name : String} {w : Option UserFunction}
    (hw : ∀ f, w = some f → f.name = name ∧ f.isCompiled = true) : (t.setWarm name w).Settled := by
  intro n e he
  rw [find?_setWarm] at he
  obtain ⟨e₀, h₀, rfl⟩ := Option.map_eq_some_iff.mp he
  split
  · rename_i hn
    subst hn
    exact ⟨(h n e₀ h₀).1, hw⟩
  · exact h n e₀ h₀

theorem Settled.checkin {t : FunctionTable} (h : t.Settled) (f : UserFunction) :
    (t.checkin f).Settled := by
  unfold FunctionTable.checkin
  split
  · exact h
  · rename_i hc
    split
    · split
      · exact h.setWarm fun g hg => by
          cases hg
          exact ⟨rfl, by simpa using hc⟩
      · exact h
    · exact h

/-- A compiled copy checked in stays in: an entry that held one holds one after any check-in, and
so does the entry of a compiled copy that is checked in. -/
theorem warm_checkin {t : FunctionTable} {n : String} {e : FunctionEntry} (he : t.find? n = some e)
    (f : UserFunction) (hw : e.warm.isSome = true ∨ (n = f.name ∧ f.isCompiled = true)) :
    ∃ e', (t.checkin f).find? n = some e' ∧ e'.warm.isSome = true := by
  unfold FunctionTable.checkin
  split
  · rename_i hc
    rcases hw with hw | ⟨-, hf⟩
    · exact ⟨e, he, hw⟩
    · simp [hf] at hc
  · split
    · rename_i e₁ h₁
      split
      · rename_i hnone
        rw [find?_setWarm, he]
        by_cases hn : n = f.name
        · exact ⟨{ e with warm := some f }, by simp [hn], rfl⟩
        · refine ⟨e, by simp [hn], ?_⟩
          rcases hw with hw | ⟨hn', -⟩
          · exact hw
          · exact absurd hn' hn
      · rename_i hsome
        rcases hw with hw | ⟨rfl, -⟩
        · exact ⟨e, he, hw⟩
        · rw [he] at h₁
          cases h₁
          refine ⟨e, he, ?_⟩
          cases hw : e.warm <;> simp_all
    · rename_i h₁
      rcases hw with hw | ⟨rfl, -⟩
      · exact ⟨e, he, hw⟩
      · rw [he] at h₁
        cases h₁

/-- What a checkout takes: the compiled copy, leaving the entry without it, or else a fresh
uncompiled copy of the template, leaving the table as it is. -/
theorem checkout_cases {t t₁ : FunctionTable} {name : String} {fn : UserFunction}
    (h : t.checkout name = some (t₁, fn)) :
    ∃ e, t.find? name = some e ∧
      ((e.warm = some fn ∧ t₁ = t.setWarm name none) ∨
        (e.warm = none ∧ t₁ = t ∧ fn = e.proto.copyWith false)) := by
  unfold checkout at h
  split at h
  · cases h
  · rename_i e he
    refine ⟨e, he, ?_⟩
    split at h
    · rename_i w hw
      cases h
      exact .inl ⟨hw, rfl⟩
    · rename_i hw
      cases h
      exact .inr ⟨hw, rfl, rfl⟩

/-- `t'` names the functions `t` names; when `t` is settled, `t'` is settled and holds every
compiled copy `t` holds. -/
structure Restored (t t' : FunctionTable) : Prop where
  keys : t'.keys = t.keys
  settled : t.Settled → t'.Settled
  warm : t.Settled → ∀ name e, t.find? name = some e → e.warm.isSome = true →
    ∃ e', t'.find? name = some e' ∧ e'.warm.isSome = true

namespace Restored

theorem refl (t : FunctionTable) : t.Restored t :=
  ⟨rfl, id, fun _ _ e he hw => ⟨e, he, hw⟩⟩

theorem of_eq {t t' : FunctionTable} (h : t' = t) : t.Restored t' := h ▸ refl t

theorem trans {a b c : FunctionTable} (hab : a.Restored b) (hbc : b.Restored c) : a.Restored c := by
  refine ⟨hbc.keys.trans hab.keys, fun h => hbc.settled (hab.settled h), ?_⟩
  intro hs name e he hw
  obtain ⟨e', he', hw'⟩ := hab.warm hs name e he hw
  exact hbc.warm (hab.settled hs) name e' he' hw'

/-- A restored warm table is warm. -/
theorem keeps_warm {t t' : FunctionTable} (h : t.Restored t') (hs : t.Settled) (hw : t.Warm) : t'.Warm := by
  intro name e' he'
  have hmem : name ∈ t.keys := by
    rw [← h.keys, ← find?_isSome_iff, he']
    rfl
  obtain ⟨e, he⟩ := Option.isSome_iff_exists.mp ((find?_isSome_iff t name).mpr hmem)
  obtain ⟨e'', he'', hw''⟩ := h.warm hs name e he (hw name e he)
  rw [he'] at he''
  cases he''
  exact hw''

/-- **A call restores the table.** Checking `fn` out under `name`, running against a table
that ends restored, and checking back a copy with the same name, as compiled as `fn`, restores
the table: a compiled copy that was taken out comes back in. -/
theorem checkout_checkin {t t₁ t₂ : FunctionTable} {name : String} {fn fn' : UserFunction}
    (hout : t.checkout name = some (t₁, fn)) (hrun : t₁.Restored t₂)
    (hname : fn'.name = fn.name) (hcomp : fn'.isCompiled = fn.isCompiled) :
    t.Restored (t₂.checkin fn') := by
  obtain ⟨e, he, ⟨hwarm, rfl⟩ | ⟨hwarm, rfl, -⟩⟩ := checkout_cases hout
  · refine ⟨by rw [keys_checkin, hrun.keys, keys_setWarm], fun hs => ?_, fun hs n e' he' hw' => ?_⟩
    · exact (hrun.settled (hs.setWarm fun _ h => by cases h)).checkin fn'
    have hs₁ : (t.setWarm name none).Settled := hs.setWarm fun _ h => by cases h
    have hs₂ := hrun.settled hs₁
    by_cases hn : n = name
    · -- the copy taken out is compiled and carries the name, and so does the one checked in
      subst hn
      rw [he] at he'
      cases he'
      obtain ⟨hfname, hfcomp⟩ := (hs n e he).2 fn hwarm
      have hmem : n ∈ t₂.keys := by
        rw [hrun.keys, keys_setWarm, ← find?_isSome_iff, he]
        rfl
      obtain ⟨e₂, he₂⟩ := Option.isSome_iff_exists.mp ((find?_isSome_iff t₂ n).mpr hmem)
      exact warm_checkin he₂ fn' (.inr ⟨by rw [hname, hfname], by rw [hcomp, hfcomp]⟩)
    · have he₁ : (t.setWarm name none).find? n = some e' := by simp [find?_setWarm, he', hn]
      obtain ⟨e₂, he₂, hw₂⟩ := hrun.warm hs₁ n e' he₁ hw'
      exact warm_checkin he₂ fn' (.inl hw₂)
  · refine ⟨by rw [keys_checkin, hrun.keys], fun hs => (hrun.settled hs).checkin fn', ?_⟩
    intro hs n e' he' hw'
    obtain ⟨e₂, he₂, hw₂⟩ := hrun.warm hs n e' he' hw'
    exact warm_checkin he₂ fn' (.inl hw₂)

end Restored

/-- Defining `f` replaces the entry under its name and leaves the others. -/
theorem find?_define (t : FunctionTable) (f : UserFunction) (n : String) :
    (t.define f).find? n =
      if n = f.name then some ⟨f.copyWith false, some (f.copyWith true)⟩ else t.find? n := by
  obtain ⟨es⟩ := t
  simp only [find?, define]
  induction es with
  | nil =>
    by_cases hn : n = f.name
    · simp [hn]
    · have hn' : (n == f.name) = false := by simpa using hn
      simp [hn, List.lookup_cons, hn']
  | cons p es ih =>
    obtain ⟨k, e⟩ := p
    by_cases hk : k = f.name
    · -- an entry under the defined name is dropped
      have hdrop : ((k, e) :: es).filter (·.1 != f.name) = es.filter (·.1 != f.name) := by simp [hk]
      rw [hdrop, ih]
      by_cases hn : n = f.name
      · simp [hn]
      · have hnk : (n == k) = false := by simpa [hk] using hn
        simp [hn, List.lookup_cons, hnk]
    · have hkeep : ((k, e) :: es).filter (·.1 != f.name) = (k, e) :: es.filter (·.1 != f.name) := by
        simp [hk]
      rw [hkeep, List.cons_append, List.lookup_cons, List.lookup_cons, ih]
      by_cases hn : n = k
      · subst hn
        simp [hk]
      · have : (n == k) = false := by simpa using hn
        simp only [this]

theorem Settled.define {t : FunctionTable} (h : t.Settled) (f : UserFunction) : (t.define f).Settled := by
  intro n e he
  rw [find?_define] at he
  split at he
  · rename_i hn
    cases he
    exact ⟨hn.symm, fun w hw => by
      cases hw
      exact ⟨hn.symm, f.isCompiled_copyWith_true⟩⟩
  · exact h n e he

theorem Warm.define {t : FunctionTable} (h : t.Warm) (f : UserFunction) : (t.define f).Warm := by
  intro n e he
  rw [find?_define] at he
  split at he
  · cases he
    rfl
  · exact h n e he

/-- Every table built by defining functions in order holds each function's compiled copy, and
each entry is settled. -/
theorem defineAll_warm_settled (fs : List UserFunction) :
    (fs.foldl define {}).Warm ∧ (fs.foldl define {}).Settled := by
  suffices ∀ t : FunctionTable, t.Warm → t.Settled → (fs.foldl define t).Warm ∧ (fs.foldl define t).Settled from
    this {} (fun _ _ h => by cases h) (fun _ _ h => by cases h)
  induction fs with
  | nil => exact fun t hw hs => ⟨hw, hs⟩
  | cons f fs ih => exact fun t hw hs => ih _ (hw.define f) (hs.define f)

end FunctionTable

end SeriesCalc
