import SeriesCalc.Eval.Convert
import SeriesCalc.Eval.Select
import SeriesCalc.Proofs.Values.Throughout
import SeriesCalc.Proofs.Values.Shapes

/-!
# Checks that evaluation keeps

Evaluation stores values of every kind: numbers, series, strings and lists, which nothing looks
into; matrices, which operations build from their operands; bundles and arrays, which the
container updates build from containers. A check `c` on values is kept by evaluation when it
grants what each of these steps needs (`Value.Invariant c`):

* it accepts every null, number, series, string and list;
* it looks at a matrix only through its soundness (`Matrix.Sound`): a matrix is accepted as soon
  as it is sound whenever the accepted matrices it is made from are;
* the updates of containers (`Members.insert`, `Elements.push`, ...) turn accepted containers
  into accepted containers.

From these fields, `Value.throughout c` holds of every value the value-level functions return
from values that satisfy it: conversions to a declared type (`Invariant.convert_throughout`),
the empty values of declared types, and selections (`Invariant.indexValue_throughout`).
-/

namespace SeriesCalc

namespace Value

/-- What a check on values must grant for evaluation to keep it at every depth of every stored
value. -/
structure Invariant (c : Value → Bool) : Prop where
  null : c .null = true
  scalar : ∀ x, c (.scalar x) = true
  series : ∀ xs, c (.series xs) = true
  str : ∀ s, c (.str s) = true
  list : ∀ ids, c (.list ids) = true
  /-- A matrix that is sound whenever the accepted matrices it is made from are is accepted. -/
  matrix : ∀ (m : Matrix) (inputs : List Matrix), (∀ a ∈ inputs, c (.matrix a) = true) →
    ((∀ a ∈ inputs, a.Sound) → m.Sound) → c (.matrix m) = true
  bundle_nil : c (.bundle []) = true
  /-- Setting a member to a value that is not null. -/
  insert : ∀ (ms : Members) (k : String) (v : Value), c (.bundle ms) = true → v.isNull = false →
    c (.bundle (ms.insert k v).1) = true
  /-- Replacing a member by a value of the same kind. -/
  replaceMember : ∀ (ms : Members) (k : String) (v w : Value), c (.bundle ms) = true →
    ms.get? k = some w → v.kind = w.kind → c (.bundle (ms.insert k v).1) = true
  remove : ∀ (ms : Members) (k : String), c (.bundle ms) = true →
    c (.bundle (ms.remove k).1) = true
  union : ∀ (a b : Members), c (.bundle a) = true → c (.bundle b) = true →
    c (.bundle (a.union b)) = true
  array_nil : ∀ k, c (.array k []) = true
  push : ∀ (e : Elements) (v : Value) (e' : Elements), c e.toValue = true → e.push v = .ok e' →
    c e'.toValue = true
  set : ∀ (e : Elements) (p : Nat) (v : Value) (e' : Elements), c e.toValue = true →
    e.set p v = .ok e' → c e'.toValue = true
  extend : ∀ (x y e : Elements), c x.toValue = true → c y.toValue = true → x.extend y = .ok e →
    c e.toValue = true
  slice : ∀ (e : Elements) (lo hi : Nat), c e.toValue = true → c (e.slice lo hi).toValue = true
  /-- An array of strings. -/
  strings : ∀ items : List Value, (∀ v ∈ items, ∃ s, v = .str s) →
    c (.array (some .strings) items) = true
  /-- An array given a kind it fits. -/
  retype : ∀ (j : Option ArrayKind) (k : ArrayKind) (items : List Value), c (.array j items) = true →
    DeclaredType.arrayFits j k = true → c (.array (some k) items) = true
  /-- Replacing an element by a value of the same kind. -/
  replaceItem : ∀ (k : Option ArrayKind) (items : List Value) (i : Nat) (v w : Value),
    c (.array k items) = true → items[i]? = some w → v.kind = w.kind →
    c (.array k (items.set i v)) = true

namespace Invariant

variable {c : Value → Bool} (hc : Invariant c)

include hc

theorem null_throughout : Value.null.throughout c = true := by simp [hc.null]

theorem scalar_throughout (x : Float) : (Value.scalar x).throughout c = true := by simp [hc.scalar]

theorem series_throughout (xs : Array Float) : (Value.series xs).throughout c = true := by
  simp [hc.series]

theorem str_throughout (s : String) : (Value.str s).throughout c = true := by simp [hc.str]

theorem list_throughout (ids : List Nat) : (Value.list ids).throughout c = true := by simp [hc.list]

/-- A sound matrix is accepted. -/
theorem matrix_throughout {m : Matrix} (h : m.Sound) : (Value.matrix m).throughout c = true := by
  rw [throughout_matrix]
  exact hc.matrix m [] (by simp) fun _ => h

/-- A matrix made from one accepted matrix by an operation that keeps soundness. -/
theorem matrix_of_one {a m : Matrix} (ha : (Value.matrix a).throughout c = true)
    (h : a.Sound → m.Sound) : (Value.matrix m).throughout c = true := by
  rw [throughout_matrix] at ha ⊢
  exact hc.matrix m [a] (by simpa using ha) fun hs => h (hs a (by simp))

/-- A matrix made from two accepted matrices by an operation that keeps soundness. -/
theorem matrix_of_two {a b m : Matrix} (ha : (Value.matrix a).throughout c = true)
    (hb : (Value.matrix b).throughout c = true) (h : a.Sound → b.Sound → m.Sound) :
    (Value.matrix m).throughout c = true := by
  rw [throughout_matrix] at ha hb ⊢
  exact hc.matrix m [a, b] (by simp [ha, hb]) fun hs => h (hs a (by simp)) (hs b (by simp))

theorem bundle_nil_throughout : (Value.bundle []).throughout c = true := by simp [hc.bundle_nil]

theorem array_nil_throughout (k : Option ArrayKind) : (Value.array k []).throughout c = true := by
  simp [hc.array_nil]

theorem insert_throughout {ms : Members} {k : String} {v : Value}
    (hms : (Value.bundle ms).throughout c = true) (hv : v.throughout c = true) (hnull : v.isNull = false) :
    (Value.bundle (ms.insert k v).1).throughout c = true :=
  throughout_insert hms hv (hc.insert ms k v (check_of_throughout hms) hnull)

theorem replaceMember_throughout {ms : Members} {k : String} {v w : Value}
    (hms : (Value.bundle ms).throughout c = true) (hv : v.throughout c = true) (hw : ms.get? k = some w)
    (hkind : v.kind = w.kind) : (Value.bundle (ms.insert k v).1).throughout c = true :=
  throughout_insert hms hv (hc.replaceMember ms k v w (check_of_throughout hms) hw hkind)

theorem remove_throughout {ms : Members} (k : String) (hms : (Value.bundle ms).throughout c = true) :
    (Value.bundle (ms.remove k).1).throughout c = true :=
  throughout_remove hms (hc.remove ms k (check_of_throughout hms))

theorem union_throughout {a b : Members} (ha : (Value.bundle a).throughout c = true)
    (hb : (Value.bundle b).throughout c = true) : (Value.bundle (a.union b)).throughout c = true :=
  throughout_union ha hb (hc.union a b (check_of_throughout ha) (check_of_throughout hb))

theorem push_throughout {e e' : Elements} {v : Value} (he : e.toValue.throughout c = true)
    (hv : v.throughout c = true) (h : e.push v = .ok e') : e'.toValue.throughout c = true :=
  throughout_push he hv h (hc.push e v e' (check_of_throughout he) h)

theorem set_throughout {e e' : Elements} {p : Nat} {v : Value} (he : e.toValue.throughout c = true)
    (hv : v.throughout c = true) (h : e.set p v = .ok e') : e'.toValue.throughout c = true :=
  throughout_set he hv h (hc.set e p v e' (check_of_throughout he) h)

theorem extend_throughout {x y e : Elements} (hx : x.toValue.throughout c = true)
    (hy : y.toValue.throughout c = true) (h : x.extend y = .ok e) : e.toValue.throughout c = true :=
  throughout_extend hx hy h (hc.extend x y e (check_of_throughout hx) (check_of_throughout hy) h)

theorem slice_throughout {e : Elements} (lo hi : Nat) (he : e.toValue.throughout c = true) :
    (e.slice lo hi).toValue.throughout c = true :=
  throughout_slice lo hi he (hc.slice e lo hi (check_of_throughout he))

theorem strings_throughout {items : List Value} (h : ∀ v ∈ items, ∃ s, v = .str s) :
    (Value.array (some .strings) items).throughout c = true := by
  refine (throughout_array _ _).2 ⟨hc.strings items h, fun v hv => ?_⟩
  obtain ⟨s, rfl⟩ := h v hv
  exact hc.str_throughout s

theorem retype_throughout {j : Option ArrayKind} {k : ArrayKind} {items : List Value}
    (h : (Value.array j items).throughout c = true) (hfit : DeclaredType.arrayFits j k = true) :
    (Value.array (some k) items).throughout c = true :=
  (throughout_array _ _).2 ⟨hc.retype j k items ((throughout_array _ _).1 h).1 hfit,
    ((throughout_array _ _).1 h).2⟩

theorem replaceItem_throughout {k : Option ArrayKind} {items : List Value} {i : Nat} {v w : Value}
    (h : (Value.array k items).throughout c = true) (hv : v.throughout c = true) (hw : items[i]? = some w)
    (hkind : v.kind = w.kind) : (Value.array k (items.set i v)).throughout c = true :=
  throughout_replace h hv (hc.replaceItem k items i v w (check_of_throughout h) hw hkind)

/-- The empty value of a declared type is accepted. -/
theorem empty?_throughout {t : DeclaredType} {v : Value} (h : t.empty? = some v) :
    v.throughout c = true := by
  cases t <;> simp only [DeclaredType.empty?, Option.some.injEq, reduceCtorEq] at h <;> subst h
  · exact hc.matrix_throughout Matrix.sound_empty
  · exact hc.str_throughout _
  · exact hc.list_throughout _
  · exact hc.bundle_nil_throughout
  · exact hc.array_nil_throughout _

/-- A value converted to a declared type is accepted if it was. -/
theorem convert_throughout {ds : Dataset} {src : Operand} {t : DeclaredType} {v : Value}
    (hsrc : src.value.throughout c = true) (h : convert ds src t = .ok v) : v.throughout c = true := by
  unfold convert at h
  split at h
  · cases h
    exact hsrc
  · split at h
    · cases h
      exact hc.scalar_throughout _
    · cases h
  · split at h
    · rename_i hv
      cases h
      rwa [hv] at hsrc
    · cases h
      exact hc.matrix_throughout (Matrix.sound_ofScalar _)
    · split at h
      · cases h
        exact hc.matrix_throughout ((Matrix.sameLayout_span _ _).sound (Matrix.sound_column _))
      · cases h
    · cases h
  · split at h
    · cases h
      exact hc.series_throughout _
    · split at h
      · cases h
        exact hc.series_throughout _
      · cases h
  · split at h
    · cases h
      exact hc.list_throughout _
    · cases h
      exact hc.list_throughout _
    · cases h
  · split at h
    · cases h
      exact hc.str_throughout _
    · cases h
  · split at h
    · rename_i hv
      cases h
      rwa [hv] at hsrc
    · cases h
  · split at h
    · split at h
      · cases h
        rename_i hv _
        rw [hv] at hsrc
        exact hc.retype_throughout hsrc ‹_›
      · cases h
    · cases h

theorem conform_throughout {ds : Dataset} {src o : Operand} {t : DeclaredType}
    (hsrc : src.value.throughout c = true) (h : conform ds src t = .ok o) : o.value.throughout c = true := by
  unfold conform at h
  split at h
  · cases h
    exact hsrc
  · cases hv : convert ds src t with
    | error e =>
      rw [hv] at h
      cases h
    | ok v =>
      rw [hv] at h
      cases h
      exact hc.convert_throughout hsrc hv

/-- What a subscript selects from an accepted matrix is accepted. -/
theorem matrixSelect_throughout {m : Matrix} {subs : List Subscript} {v : Value}
    (hm : (Value.matrix m).throughout c = true) (h : matrixSelect m subs = .ok v) :
    v.throughout c = true := by
  unfold matrixSelect at h
  obtain ⟨sel, -, h⟩ := Except.bind_eq_ok h
  obtain ⟨_, -, h⟩ := Except.bind_eq_ok h
  have hblock : (Value.matrix (Selection.extract m sel)).throughout c = true :=
    hc.matrix_of_one hm fun hs => Selection.sound_extract hs sel
  dsimp only at h
  split at h
  · split at h
    · cases h
      exact hc.scalar_throughout _
    · cases h
      exact hblock
  · cases h
    exact hblock

/-- What a subscript selects from an accepted value is accepted: a number, a part of a matrix,
a slice of a list, string or array, an element or a member. -/
theorem indexValue_throughout {base v : Value} {subs : List Subscript} {ds : Dataset}
    (hb : base.throughout c = true) (h : indexValue base subs ds = .ok v) : v.throughout c = true := by
  unfold indexValue at h
  dsimp only at h
  split at h
  · -- a series gives the number at one observation, found by position or by label
    split at h
    · obtain ⟨_, -, h⟩ := Except.bind_eq_ok h
      obtain ⟨_, -, h⟩ := Except.bind_eq_ok h
      cases h
      exact hc.scalar_throughout _
    · split at h
      · obtain ⟨_, -, h⟩ := Except.bind_eq_ok h
        obtain ⟨_, -, h⟩ := Except.bind_eq_ok h
        cases h
        exact hc.scalar_throughout _
      · obtain ⟨_, h, -⟩ := Except.bind_eq_ok h
        cases h
    · obtain ⟨_, h, -⟩ := Except.bind_eq_ok h
      cases h
  · exact hc.matrixSelect_throughout (hc.matrix_throughout (Matrix.sound_ofScalar _)) h
  · exact hc.matrixSelect_throughout hb h
  · split at h
    · obtain ⟨_, -, h⟩ := Except.bind_eq_ok h
      cases h
      exact hc.list_throughout _
    · cases h
  · split at h
    · obtain ⟨_, -, h⟩ := Except.bind_eq_ok h
      obtain ⟨_, -, h⟩ := Except.bind_eq_ok h
      cases h
      exact hc.str_throughout _
    · obtain ⟨_, -, h⟩ := Except.bind_eq_ok h
      cases h
      exact hc.str_throughout _
    · obtain ⟨_, h, -⟩ := Except.bind_eq_ok h
      cases h
  · split at h
    · obtain ⟨p, -, h⟩ := Except.bind_eq_ok h
      cases h
      -- an element, or null past the end
      rename_i k items _ _
      rw [List.getD_eq_getElem?_getD]
      cases hp : items[p]? with
      | none => exact hc.null_throughout
      | some w => exact ((throughout_array _ _).1 hb).2 w (List.mem_of_getElem? hp)
    · obtain ⟨_, -, h⟩ := Except.bind_eq_ok h
      cases h
      exact hc.slice_throughout _ _ hb
    · cases h
  · split at h
    · split at h
      · rename_i ms _ _ w hw
        have hmem := ((throughout_bundle _).1 hb).2 _ (Members.mem_of_get? hw)
        split at h
        · split at h
          · cases h
            exact hc.matrix_throughout (Matrix.sound_column _)
          · cases h
            exact hmem
        · cases h
          exact hmem
      · cases h
    · cases h
  · cases h

end Invariant

end Value

end SeriesCalc
