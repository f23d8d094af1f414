import SeriesCalc.Proofs.Values.Statements

/-!
# Stored values are well formed

Two checks hold of every value stored anywhere, at every depth, from one evaluation to the next.
Each grants what evaluation needs of it (`Value.Invariant`), so `Runnable.evaluate_keeps` carries
it through every statement, whatever the statement does and whether it succeeds or fails.

* **Containers** (`Value.containerWellFormed`): an array has no element kind and no elements, or
  an element kind that every element has, and which no number, series or null has; a bundle
  holds no null member. The array updates keep it because each admits an element through
  `Elements.check`, which gives an untyped array the element's kind or compares the element's
  kind with the array's (`Elements.check_kind`).
* **Matrices** (`Value.matrixSound`): the number of stored entries, taken as a word, is the word
  product of the shape (`Matrix.Sound`). That is the relation the library's shape checks make:
  `mshape` compares a wrapped product, so a shape whose product passes `2^64` may store fewer
  entries than positions, and only the word relation holds of every matrix.
-/

namespace SeriesCalc

/-- Comparing an optional element kind with a known one is equality. -/
theorem ArrayKind.beq_some_iff {o : Option ArrayKind} {k : ArrayKind} :
    (o == some k) = true ↔ o = some k := by
  cases o with
  | none => exact ⟨fun h => (by cases h), fun h => (by cases h)⟩
  | some j =>
    refine ⟨fun h => congrArg some (ArrayKind.eq_of_beq h), ?_⟩
    rintro ⟨⟩
    cases k <;> rfl

namespace Value

/-- A container is well formed at its top: an array has no element kind and no elements, or an
element kind that every element has; a bundle holds no null member. Any other value passes. -/
def containerWellFormed : Value → Bool
  | .array none items => items.isEmpty
  | .array (some k) items => items.all (·.arrayKind? == some k)
  | .bundle ms => ms.all (!·.2.isNull)
  | _ => true

/-- A matrix stores the word product of its shape in entries. Any other value passes. -/
def matrixSound : Value → Bool
  | .matrix m => decide m.Sound
  | _ => true

theorem containerWellFormed_untyped (items : List Value) :
    (Value.array none items).containerWellFormed = true ↔ items = [] := by
  simp [containerWellFormed]

theorem containerWellFormed_typed (k : ArrayKind) (items : List Value) :
    (Value.array (some k) items).containerWellFormed = true ↔ ∀ v ∈ items, v.arrayKind? = some k := by
  simp only [containerWellFormed, List.all_eq_true, ArrayKind.beq_some_iff]

theorem containerWellFormed_bundle (ms : Members) :
    (Value.bundle ms).containerWellFormed = true ↔ ∀ kv ∈ ms, kv.2.isNull = false := by
  simp [containerWellFormed]

/-- Whether a value is null is read off its kind. -/
theorem isNull_eq_kind (v : Value) : v.isNull = (v.kind == .null) := by
  cases v <;> rfl

theorem arrayKind?_of_kind {v w : Value} (h : v.kind = w.kind) : v.arrayKind? = w.arrayKind? := by
  simp only [arrayKind?, h]

/-- An array of kind `k` is well formed when every element it holds has kind `k`, or was there
in a well-formed array of kind `k` or of no kind. -/
theorem containerWellFormed_of_sub {j : Option ArrayKind} {k : ArrayKind} {old items : List Value}
    (hold : (Value.array j old).containerWellFormed = true) (hj : j = none ∨ j = some k)
    (hitems : ∀ v ∈ items, v ∈ old ∨ v.arrayKind? = some k) :
    (Value.array (some k) items).containerWellFormed = true := by
  refine (containerWellFormed_typed k items).2 fun v hv => ?_
  rcases hitems v hv with hv | hv
  · rcases hj with rfl | rfl
    · rw [(containerWellFormed_untyped old).1 hold] at hv
      cases hv
    · exact (containerWellFormed_typed k old).1 hold v hv
  · exact hv

end Value

namespace Elements

/-- Admitting an element gives the array the element's kind, which the array either lacked or
had already. -/
theorem check_kind {e e₁ : Elements} {v : Value} (h : e.check v = .ok e₁) :
    ∃ k, v.arrayKind? = some k ∧ e₁.kind = some k ∧ (e.kind = none ∨ e.kind = some k) := by
  unfold check at h
  split at h
  · cases h
  · rename_i k j hv he
    split at h
    · cases h
      rename_i hkj
      rw [ArrayKind.eq_of_beq hkj] at hv
      exact ⟨j, hv, he, .inr he⟩
    · cases h
  · rename_i k hv he
    cases h
    exact ⟨k, hv, rfl, .inl he⟩

/-- An admitted element keeps a well-formed array well formed, with its items and the element. -/
theorem wellFormed_of_check {e e₁ : Elements} {v : Value} (he : e.toValue.containerWellFormed = true)
    (h : e.check v = .ok e₁) {items : List Value} (hitems : ∀ x ∈ items, x ∈ e.items ∨ x = v) :
    (Value.array e₁.kind items).containerWellFormed = true := by
  obtain ⟨k, hv, hk, hj⟩ := check_kind h
  rw [hk]
  exact Value.containerWellFormed_of_sub he hj fun x hx =>
    (hitems x hx).imp_right fun hxv : x = v => hxv ▸ hv


end Elements

namespace Value

open Elements

/-- **Well-formed containers are a check that evaluation keeps**: every container update admits
its elements through the kind check, and a member is set only to a value that is not null or
that has the kind of the member it replaces. -/
theorem containerWellFormed_invariant : Invariant containerWellFormed where
  null := rfl
  scalar _ := rfl
  series _ := rfl
  str _ := rfl
  list _ := rfl
  matrix _ _ _ _ := rfl
  bundle_nil := rfl
  insert ms k v hms hv := by
    refine (containerWellFormed_bundle _).2 fun kv hkv => ?_
    rcases Members.mem_insert hkv with h | h
    · rw [h]
      exact hv
    · exact (containerWellFormed_bundle ms).1 hms kv h
  replaceMember ms k v w hms hw hkind := by
    refine (containerWellFormed_bundle _).2 fun kv hkv => ?_
    rcases Members.mem_insert hkv with h | h
    · -- the new value has the kind of the member it replaces, which is not null
      rw [h, isNull_eq_kind, hkind, ← isNull_eq_kind]
      exact (containerWellFormed_bundle ms).1 hms _ (Members.mem_of_get? hw)
    · exact (containerWellFormed_bundle ms).1 hms kv h
  remove ms k hms :=
    (containerWellFormed_bundle _).2 fun kv hkv =>
      (containerWellFormed_bundle ms).1 hms kv (Members.mem_remove hkv)
  union a b ha hb := by
    refine (containerWellFormed_bundle _).2 fun kv hkv => ?_
    rcases Members.mem_union hkv with h | h
    · exact (containerWellFormed_bundle a).1 ha kv h
    · exact (containerWellFormed_bundle b).1 hb kv h
  array_nil k := by
    cases k <;> rfl
  push e v e' he h := by
    obtain ⟨e₁, hc, rfl⟩ := push_eq_ok h
    exact wellFormed_of_check he hc fun x hx => by simpa using hx
  set e p v e' he h := by
    obtain ⟨-, e₁, hc, rfl⟩ := set_eq_ok h
    exact wellFormed_of_check he hc fun x hx => (List.mem_or_eq_of_mem_set hx).imp_right id
  extend x y e hx hy h := by
    unfold Elements.toValue at hx hy ⊢
    rw [items_extend h]
    unfold Elements.extend at h
    split at h
    · -- both kinds known: they agree
      rename_i a b ha hb
      split at h
      · cases h
        rename_i hab
        rw [ha] at hx ⊢
        rw [hb, ← ArrayKind.eq_of_beq hab] at hy
        refine (containerWellFormed_typed a _).2 fun v hv => ?_
        rcases List.mem_append.1 hv with hv | hv
        · exact (containerWellFormed_typed a _).1 hx v hv
        · exact (containerWellFormed_typed a _).1 hy v hv
      · cases h
    · -- an untyped array has no elements and takes the other's kind
      rename_i k hx'
      cases h
      rw [hx', containerWellFormed_untyped] at hx
      rw [hx, List.nil_append]
      exact hy
    · -- an untyped other side has no elements
      rename_i a hx' hy'
      cases h
      rw [hy', containerWellFormed_untyped] at hy
      rw [hy, List.append_nil]
      exact hx
  slice e lo hi he := by
    unfold Elements.toValue at he ⊢
    -- a slice keeps the kind
    rw [show (e.slice lo hi).kind = e.kind from rfl]
    cases hk : e.kind with
    | none =>
      rw [hk, containerWellFormed_untyped] at he
      rw [containerWellFormed_untyped]
      simp [Elements.slice, he]
    | some k =>
      rw [hk] at he
      exact (containerWellFormed_typed k _).2 fun v hv =>
        (containerWellFormed_typed k _).1 he v (Elements.mem_slice hv)
  strings items h := by
    refine (containerWellFormed_typed _ _).2 fun v hv => ?_
    obtain ⟨s, rfl⟩ := h v hv
    rfl
  retype j k items h hfit := by
    cases j with
    | none =>
      rw [(containerWellFormed_untyped items).1 h]
      rfl
    | some j =>
      have hjk : j = k := ArrayKind.eq_of_beq hfit
      rw [← hjk]
      exact h
  replaceItem k items i v w h hw hkind := by
    cases k with
    | none =>
      rw [(containerWellFormed_untyped items).1 h] at hw
      cases hw
    | some k =>
      -- the new element has the kind of the one it replaces
      have hwk := (containerWellFormed_typed k items).1 h w (List.mem_of_getElem? hw)
      refine (containerWellFormed_typed k _).2 fun x hx => ?_
      rcases List.mem_or_eq_of_mem_set hx with hx | rfl
      · exact (containerWellFormed_typed k items).1 h x hx
      · rw [arrayKind?_of_kind hkind]
        exact hwk

/-- **Sound matrices are a check that evaluation keeps**: every matrix an operation builds is
sound as soon as the matrices it is built from are, and nothing else looks at matrices. -/
theorem matrixSound_invariant : Invariant matrixSound where
  null := rfl
  scalar _ := rfl
  series _ := rfl
  str _ := rfl
  list _ := rfl
  matrix m inputs hin hsound := by
    unfold matrixSound
    exact decide_eq_true (hsound fun a ha => of_decide_eq_true (hin a ha))
  bundle_nil := rfl
  insert _ _ _ _ _ := rfl
  replaceMember _ _ _ _ _ _ _ := rfl
  remove _ _ _ := rfl
  union _ _ _ _ := rfl
  array_nil _ := rfl
  push _ _ _ _ _ := rfl
  set _ _ _ _ _ _ := rfl
  extend _ _ _ _ _ _ := rfl
  slice _ _ _ _ := rfl
  strings _ _ := rfl
  retype _ _ _ _ _ := rfl
  replaceItem _ _ _ _ _ _ _ _ := rfl

end Value

namespace Runnable

end Runnable

end SeriesCalc
