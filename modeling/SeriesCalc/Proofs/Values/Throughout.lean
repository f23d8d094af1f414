import SeriesCalc.Eval.Machine

/-!
# Checks that hold at every depth of a value

A bundle holds members and an array holds elements, and these may be containers again.
`Value.throughout c v` says that the check `c` holds of `v` and of every member and element
inside it, at any depth. The properties of stored values that evaluation keeps have this form:
containers are well formed, matrices store as many entries as their shapes say.

* A container satisfies `c` throughout when it passes `c` itself and each of its members or
  elements satisfies `c` throughout (`throughout_bundle`, `throughout_array`); any other value
  only has to pass `c`.
* Whatever an accessor reaches inside a value satisfies `c` throughout if the value does
  (`throughout_follow`, `throughout_followPath`).
* The updates of bundles and arrays (`Members.insert`, `Members.union`, `Elements.push`, ...) put
  in only values they are given and values already there (`Members.mem_insert`, ...), so they keep
  `c` throughout as soon as they keep the check of the container itself (`throughout_insert`,
  ...).
-/

namespace SeriesCalc

namespace Value

mutual

/-- `c` holds of the value and of every member and element inside it, at any depth. -/
def throughout (c : Value → Bool) : Value → Bool
  | .bundle ms => c (.bundle ms) && throughoutMembers c ms
  | .array k items => c (.array k items) && throughoutItems c items
  | v => c v

/-- `c` holds throughout every member. -/
def throughoutMembers (c : Value → Bool) : List (String × Value) → Bool
  | [] => true
  | (_, v) :: rest => throughout c v && throughoutMembers c rest

/-- `c` holds throughout every element. -/
def throughoutItems (c : Value → Bool) : List Value → Bool
  | [] => true
  | v :: rest => throughout c v && throughoutItems c rest

end

variable {c : Value → Bool}

theorem throughoutMembers_iff {ms : List (String × Value)} :
    throughoutMembers c ms = true ↔ ∀ kv ∈ ms, kv.2.throughout c = true := by
  induction ms with
  | nil => simp [throughoutMembers]
  | cons kv rest ih =>
    obtain ⟨k, v⟩ := kv
    simp [throughoutMembers, ih]

theorem throughoutItems_iff {items : List Value} :
    throughoutItems c items = true ↔ ∀ v ∈ items, v.throughout c = true := by
  induction items with
  | nil => simp [throughoutItems]
  | cons v rest ih => simp [throughoutItems, ih]

@[simp] theorem throughout_bundle (ms : List (String × Value)) :
    (Value.bundle ms).throughout c = true ↔
      c (.bundle ms) = true ∧ ∀ kv ∈ ms, kv.2.throughout c = true := by
  simp [throughout, throughoutMembers_iff]

@[simp] theorem throughout_array (k : Option ArrayKind) (items : List Value) :
    (Value.array k items).throughout c = true ↔
      c (.array k items) = true ∧ ∀ v ∈ items, v.throughout c = true := by
  simp [throughout, throughoutItems_iff]

@[simp] theorem throughout_null : Value.null.throughout c = c .null := by simp [throughout]

@[simp] theorem throughout_scalar (x : Float) : (Value.scalar x).throughout c = c (.scalar x) := by
  simp [throughout]

@[simp] theorem throughout_series (xs : Array Float) :
    (Value.series xs).throughout c = c (.series xs) := by
  simp [throughout]

@[simp] theorem throughout_matrix (m : Matrix) : (Value.matrix m).throughout c = c (.matrix m) := by
  simp [throughout]

@[simp] theorem throughout_str (s : String) : (Value.str s).throughout c = c (.str s) := by
  simp [throughout]

@[simp] theorem throughout_list (ids : List Nat) : (Value.list ids).throughout c = c (.list ids) := by
  simp [throughout]

/-- A value satisfying `c` throughout passes `c` itself. -/
theorem check_of_throughout {v : Value} (h : v.throughout c = true) : c v = true := by
  cases v with
  | bundle ms => exact ((throughout_bundle ms).1 h).1
  | array k items => exact ((throughout_array k items).1 h).1
  | _ => simpa using h

end Value

namespace Members

/-- The value stored under a key is a member. -/
theorem mem_of_get? {ms : Members} {k : String} {v : Value} (h : ms.get? k = some v) :
    (k, v) ∈ ms := by
  unfold get? at h
  obtain ⟨kv, hfind, rfl⟩ := Option.map_eq_some_iff.1 h
  have hk : kv.1 = k := by simpa using List.find?_some hfind
  have hmem := List.mem_of_find?_eq_some hfind
  rw [← hk]
  exact hmem

/-- Setting a member stores the new value or keeps a member that was there. -/
theorem mem_insert {ms : Members} {k : String} {v : Value} {kv : String × Value}
    (h : kv ∈ (ms.insert k v).1) : kv.2 = v ∨ kv ∈ ms := by
  unfold insert at h
  split at h
  · obtain ⟨⟨k', w⟩, hw, rfl⟩ := List.mem_map.1 h
    dsimp only
    split
    · exact .inl rfl
    · exact .inr hw
  · rcases List.mem_append.1 h with h | h
    · exact .inr h
    · exact .inl (by simp_all)

theorem mem_remove {ms : Members} {k : String} {kv : String × Value} (h : kv ∈ (ms.remove k).1) :
    kv ∈ ms :=
  (List.mem_filter.1 h).1

/-- A union holds members of its two sides only. -/
theorem mem_union {a b : Members} {kv : String × Value} (h : kv ∈ a.union b) : kv ∈ a ∨ kv ∈ b := by
  unfold union at h
  induction b generalizing a with
  | nil => exact .inl h
  | cons x rest ih =>
    obtain ⟨k, w⟩ := x
    rw [List.foldl_cons] at h
    rcases ih h with h | h
    · by_cases hk : a.contains k = true
      · simp only [hk, if_true] at h
        exact .inl h
      · simp only [hk, if_false, Bool.false_eq_true] at h
        rcases List.mem_append.1 h with h | h
        · exact .inl h
        · exact .inr (by simp_all)
    · exact .inr (List.mem_cons_of_mem _ h)

end Members

namespace Elements

/-- The elements an array value has. -/
theorem eq_toValue_of_ofValue? {v : Value} {e : Elements} (h : ofValue? v = some e) : v = e.toValue := by
  unfold ofValue? at h
  split at h
  · cases h
    rfl
  · cases h

/-- Admitting an element changes at most the kind. -/
theorem items_check {e e₁ : Elements} {v : Value} (h : e.check v = .ok e₁) : e₁.items = e.items := by
  unfold check at h
  split at h
  · cases h
  · split at h
    · cases h; rfl
    · cases h
  · cases h; rfl

/-- A push that returns admitted the element and appended it. -/
theorem push_eq_ok {e e' : Elements} {v : Value} (h : e.push v = .ok e') :
    ∃ e₁, e.check v = .ok e₁ ∧ e' = { e₁ with items := e.items ++ [v] } := by
  unfold push at h
  cases hc : e.check v with
  | error f => rw [hc] at h; cases h
  | ok e₁ =>
    simp only [hc] at h
    cases h
    exact ⟨e₁, rfl, by rw [items_check hc]⟩

/-- A set that returns was at a position of the array, admitted the element and put it there. -/
theorem set_eq_ok {e e' : Elements} {pos : Nat} {v : Value} (h : e.set pos v = .ok e') :
    pos < e.items.length ∧
      ∃ e₁, e.check v = .ok e₁ ∧ e' = { e₁ with items := e.items.set pos v } := by
  unfold set at h
  split at h
  · cases h
  · rename_i hpos
    cases hc : e.check v with
    | error f => rw [hc] at h; cases h
    | ok e₁ =>
      simp only [hc] at h
      cases h
      exact ⟨Nat.lt_of_not_le hpos, e₁, rfl, by rw [items_check hc]⟩

theorem items_push {e e' : Elements} {v : Value} (h : e.push v = .ok e') : e'.items = e.items ++ [v] := by
  obtain ⟨e₁, -, rfl⟩ := push_eq_ok h
  rfl

theorem items_set {e e' : Elements} {pos : Nat} {v : Value} (h : e.set pos v = .ok e') :
    e'.items = e.items.set pos v := by
  obtain ⟨-, e₁, -, rfl⟩ := set_eq_ok h
  rfl

theorem items_extend {x y e : Elements} (h : x.extend y = .ok e) : e.items = x.items ++ y.items := by
  unfold extend at h
  split at h
  · split at h
    · cases h; rfl
    · cases h
  · cases h; rfl
  · cases h; rfl

theorem mem_slice {e : Elements} {lo hi : Nat} {v : Value} (h : v ∈ (e.slice lo hi).items) :
    v ∈ e.items :=
  List.mem_of_mem_drop (List.mem_of_mem_take h)

end Elements

namespace Value

variable {c : Value → Bool}

/-- What an accessor reaches inside a value satisfying `c` throughout satisfies it too. -/
theorem throughout_follow {v w : Value} {a : Accessor} (h : v.throughout c = true)
    (hf : Accessor.follow v a = .ok w) : w.throughout c = true := by
  unfold Accessor.follow at hf
  split at hf
  · split at hf
    · cases hf
      exact ((throughout_bundle _).1 h).2 _ (Members.mem_of_get? ‹_›)
    · cases hf
  · split at hf
    · cases hf
      exact ((throughout_array _ _).1 h).2 _ (List.mem_of_getElem? ‹_›)
    · cases hf
  · cases hf
  · cases hf

/-- The same along a path of accessors. -/
theorem throughout_followPath :
    ∀ {v w : Value} (path : List Accessor), v.throughout c = true →
      path.foldlM Accessor.follow v = .ok w → w.throughout c = true
  | _, _, [], h, hf => by
    cases hf
    exact h
  | v, w, a :: rest, h, hf => by
    rw [List.foldlM_cons] at hf
    cases hv : Accessor.follow v a with
    | error e => rw [hv] at hf; cases hf
    | ok u =>
      rw [hv] at hf
      exact throughout_followPath rest (throughout_follow h hv) hf

/-- A bundle with a member set keeps `c` throughout once it passes `c`. -/
theorem throughout_insert {ms : Members} {k : String} {v : Value}
    (hms : (Value.bundle ms).throughout c = true) (hv : v.throughout c = true)
    (hc : c (.bundle (ms.insert k v).1) = true) : (Value.bundle (ms.insert k v).1).throughout c = true := by
  refine (throughout_bundle _).2 ⟨hc, fun kv hkv => ?_⟩
  rcases Members.mem_insert hkv with h | h
  · rw [h]
    exact hv
  · exact ((throughout_bundle _).1 hms).2 kv h

theorem throughout_remove {ms : Members} {k : String} (hms : (Value.bundle ms).throughout c = true)
    (hc : c (.bundle (ms.remove k).1) = true) : (Value.bundle (ms.remove k).1).throughout c = true :=
  (throughout_bundle _).2 ⟨hc, fun kv hkv => ((throughout_bundle _).1 hms).2 kv (Members.mem_remove hkv)⟩

theorem throughout_union {a b : Members} (ha : (Value.bundle a).throughout c = true)
    (hb : (Value.bundle b).throughout c = true) (hc : c (.bundle (a.union b)) = true) :
    (Value.bundle (a.union b)).throughout c = true := by
  refine (throughout_bundle _).2 ⟨hc, fun kv hkv => ?_⟩
  rcases Members.mem_union hkv with h | h
  · exact ((throughout_bundle _).1 ha).2 kv h
  · exact ((throughout_bundle _).1 hb).2 kv h

theorem throughout_push {e e' : Elements} {v : Value} (he : e.toValue.throughout c = true)
    (hv : v.throughout c = true) (h : e.push v = .ok e') (hc : c e'.toValue = true) :
    e'.toValue.throughout c = true := by
  refine (throughout_array _ _).2 ⟨hc, fun x hx => ?_⟩
  rw [Elements.items_push h] at hx
  rcases List.mem_append.1 hx with hx | hx
  · exact ((throughout_array _ _).1 he).2 x hx
  · rw [List.mem_singleton.1 hx]
    exact hv

theorem throughout_set {e e' : Elements} {pos : Nat} {v : Value} (he : e.toValue.throughout c = true)
    (hv : v.throughout c = true) (h : e.set pos v = .ok e') (hc : c e'.toValue = true) :
    e'.toValue.throughout c = true := by
  refine (throughout_array _ _).2 ⟨hc, fun x hx => ?_⟩
  rw [Elements.items_set h] at hx
  rcases List.mem_or_eq_of_mem_set hx with hx | hx
  · exact ((throughout_array _ _).1 he).2 x hx
  · rw [hx]
    exact hv

theorem throughout_extend {x y e : Elements} (hx : x.toValue.throughout c = true)
    (hy : y.toValue.throughout c = true) (h : x.extend y = .ok e) (hc : c e.toValue = true) :
    e.toValue.throughout c = true := by
  refine (throughout_array _ _).2 ⟨hc, fun v hv => ?_⟩
  rw [Elements.items_extend h] at hv
  rcases List.mem_append.1 hv with hv | hv
  · exact ((throughout_array _ _).1 hx).2 v hv
  · exact ((throughout_array _ _).1 hy).2 v hv

theorem throughout_slice {e : Elements} (lo hi : Nat) (he : e.toValue.throughout c = true)
    (hc : c (e.slice lo hi).toValue = true) : (e.slice lo hi).toValue.throughout c = true :=
  (throughout_array _ _).2 ⟨hc, fun v hv => ((throughout_array _ _).1 he).2 v (Elements.mem_slice hv)⟩

/-- An array with one element replaced keeps `c` throughout once it passes `c`. -/
theorem throughout_replace {k : Option ArrayKind} {items : List Value} {i : Nat} {v : Value}
    (h : (Value.array k items).throughout c = true) (hv : v.throughout c = true)
    (hc : c (.array k (items.set i v)) = true) : (Value.array k (items.set i v)).throughout c = true := by
  refine (throughout_array _ _).2 ⟨hc, fun x hx => ?_⟩
  rcases List.mem_or_eq_of_mem_set hx with hx | hx
  · exact ((throughout_array _ _).1 h).2 x hx
  · rw [hx]
    exact hv

end Value

end SeriesCalc
