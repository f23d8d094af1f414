import SeriesCalc.Data.Vars

/-!
# Names and values in the variable table

A variable is found by name through the index (`lookup`) and read from its slot (`get?`). The
index agrees with the slots, so `lookup x = some i` exactly when slot `i` holds `x`
(`lookup_eq_some_iff`), no two slots hold one name (`nameOf?_inj`), and tables that hold a name
in the same slots look it up alike (`lookup_congr`). Every operation is described here by what
it does to the name and the value of each slot (`nameOf?`, `get?`).

* `valueOf? vt x`: the value of the variable called `x`.
* `push vt x v hx`: a name no slot holds, in a new slot at the end; what a successful `insert`
  of such a name leaves (`insert_fresh_eq_ok`).
* `SameOutside V W S`: `W` has the names and values of `V` outside the slots `S`, and each slot
  of `S` keeps its name or is emptied. It is a preorder in `W`, so the steps of a call that lends
  the slots `S` chain by `SameOutside.trans`, and it keeps the value of every name that no slot of
  `S` holds (`SameOutside.valueOf?_eq`).
-/

namespace SeriesCalc

namespace VarTable

/-- The value of the variable called `x`. -/
def valueOf? (vt : VarTable) (x : String) : Option Value := (vt.lookup x).bind vt.get?

/-- Tables with the same store are the same table. -/
theorem ext_store {V W : VarTable} (h : V.toVarStore = W.toVarStore) : V = W := by
  cases V
  cases W
  cases h
  rfl

/-! ## Lookups -/

theorem lookup_eq_some_iff {vt : VarTable} {x : String} {i : Nat} :
    vt.lookup x = some i ↔ vt.nameOf? i = some x :=
  vt.agrees x i

theorem lookup_eq_none_iff {vt : VarTable} {x : String} :
    vt.lookup x = none ↔ ∀ j, vt.nameOf? j ≠ some x :=
  vt.agrees.lookup_eq_none_iff

/-- No two slots hold one name. -/
theorem nameOf?_inj {vt : VarTable} {i j : Nat} {x : String} (hi : vt.nameOf? i = some x)
    (hj : vt.nameOf? j = some x) : i = j :=
  vt.agrees.nameOf?_inj hi hj

/-- Tables that hold `x` in the same slots look it up alike. -/
theorem lookup_congr {V W : VarTable} {x : String} (h : ∀ j, V.nameOf? j = some x ↔ W.nameOf? j = some x) :
    V.lookup x = W.lookup x := by
  cases hV : V.lookup x with
  | none =>
    symm
    rw [lookup_eq_none_iff] at hV ⊢
    exact fun j hj => hV j ((h j).mpr hj)
  | some i =>
    symm
    rw [lookup_eq_some_iff] at hV ⊢
    exact (h i).mp hV

/-! ## Slots -/

/-- A slot holds a value exactly when it holds a name. -/
theorem isSome_get? (vt : VarTable) (j : Nat) : (vt.get? j).isSome = (vt.nameOf? j).isSome :=
  VarStore.isSome_get? _ j

/-- A name has a value exactly when it is bound. -/
theorem isSome_valueOf? (vt : VarTable) (x : String) :
    (vt.valueOf? x).isSome = (vt.lookup x).isSome := by
  unfold valueOf?
  cases hx : vt.lookup x with
  | none => rfl
  | some i =>
    rw [Option.bind_some, isSome_get?, lookup_eq_some_iff.mp hx]
    rfl

@[simp] theorem toVarStore_setSlot (vt : VarTable) (i : Nat) (v : Value) :
    (vt.setSlot i v).toVarStore = vt.toVarStore.setSlot i v := rfl

@[simp] theorem nameOf?_setSlot (vt : VarTable) (i : Nat) (v : Value) (j : Nat) :
    (vt.setSlot i v).nameOf? j = vt.nameOf? j :=
  VarStore.nameOf?_setSlot _ i v j

theorem get?_setSlot_ne (vt : VarTable) {i j : Nat} (v : Value) (h : j ≠ i) :
    (vt.setSlot i v).get? j = vt.get? j :=
  VarStore.get?_setSlot_ne _ v h

theorem get?_setSlot_self (vt : VarTable) {i : Nat} (v : Value) (h : (vt.nameOf? i).isSome) :
    (vt.setSlot i v).get? i = some v :=
  VarStore.get?_setSlot_self _ v h

@[simp] theorem lookup_setSlot (vt : VarTable) (i : Nat) (v : Value) (x : String) :
    (vt.setSlot i v).lookup x = vt.lookup x :=
  VarStore.lookup_setSlot _ i v x

/-- Writing a slot keeps the value of every name it does not hold. -/
theorem valueOf?_setSlot_of_ne (vt : VarTable) {i : Nat} (v : Value) {x : String}
    (h : vt.nameOf? i ≠ some x) : (vt.setSlot i v).valueOf? x = vt.valueOf? x := by
  unfold valueOf?
  rw [lookup_setSlot]
  cases hx : vt.lookup x with
  | none => rfl
  | some j =>
    have hj : j ≠ i := fun hji => h (hji ▸ lookup_eq_some_iff.mp hx)
    exact get?_setSlot_ne vt v hj

theorem valueOf?_setSlot_self (vt : VarTable) {i : Nat} (v : Value) {x : String}
    (h : vt.lookup x = some i) : (vt.setSlot i v).valueOf? x = some v := by
  unfold valueOf?
  rw [lookup_setSlot, h]
  exact get?_setSlot_self vt v (by rw [lookup_eq_some_iff.mp h]; rfl)

/-! ## Removing -/

/-- A successful `remove` is the store's. -/
theorem remove_eq_ok {vt W : VarTable} {y : String} {v : Value} (h : vt.remove y = .ok (W, v)) :
    (vt.toVarStore.remove y).1 = .ok v ∧ W.toVarStore = (vt.toVarStore.remove y).2 := by
  unfold remove at h
  dsimp only at h
  cases hr : (vt.toVarStore.remove y).1 with
  | error e =>
    rw [hr] at h
    cases h
  | ok v' =>
    rw [hr] at h
    cases h
    exact ⟨rfl, rfl⟩

/-- Removing `y` empties the slot `lookup` finds for it and leaves the others. -/
theorem remove_ok {vt W : VarTable} {y : String} {v : Value} (h : vt.remove y = .ok (W, v)) :
    ∃ i, vt.lookup y = some i ∧ W.nameOf? i = none ∧
      ∀ j, j ≠ i → W.nameOf? j = vt.nameOf? j ∧ W.get? j = vt.get? j := by
  obtain ⟨hres, hW⟩ := remove_eq_ok h
  cases hy : vt.lookup y with
  | none =>
    rw [VarStore.remove_of_lookup_none hy] at hres
    cases hres
  | some i =>
    obtain ⟨w, -, hrem⟩ := vt.agrees.remove_of_lookup hy
    rw [hrem] at hW
    have hlt := VarStore.lt_of_nameOf? (lookup_eq_some_iff.mp hy)
    refine ⟨i, rfl, ?_, fun j hj => ?_⟩
    · rw [VarStore.nameOf?_of_slots_set hlt (congrArg VarStore.slots hW), if_pos rfl]
      rfl
    · rw [VarStore.nameOf?_of_slots_set hlt (congrArg VarStore.slots hW), if_neg hj,
        VarStore.get?_of_slots_set hlt (congrArg VarStore.slots hW), if_neg hj]
      exact ⟨rfl, rfl⟩

/-! ## A new slot -/

/-- A successful `insert` is the store's. -/
theorem insert_eq_ok {vt W : VarTable} {x : String} {v : Value} {i : Nat}
    (h : vt.insert x v = .ok (W, i)) :
    (vt.toVarStore.insert x v).1 = .ok i ∧ W.toVarStore = (vt.toVarStore.insert x v).2 := by
  unfold insert at h
  dsimp only at h
  cases hr : (vt.toVarStore.insert x v).1 with
  | error e =>
    rw [hr] at h
    cases h
  | ok i' =>
    rw [hr] at h
    cases h
    exact ⟨rfl, rfl⟩

/-- A fresh name that went in went into a new slot at the end. -/
theorem insert_fresh_eq_ok {vt W : VarTable} {x : String} {v : Value} {i : Nat}
    (hx : vt.lookup x = none) (h : vt.insert x v = .ok (W, i)) : W = vt.push x v hx := by
  obtain ⟨hres, hW⟩ := insert_eq_ok h
  rcases VarStore.insert_of_lookup_eq_none v hx with ⟨-, e, he⟩ | he
  · rw [he] at hres
    cases hres
  · rw [he] at hW
    exact ext_store hW

/-- A successful `insert` wrote the slot of a known name, or put a fresh name in a new slot at
the end. -/
theorem insert_ok_cases {vt W : VarTable} {x : String} {v : Value} {i : Nat}
    (h : vt.insert x v = .ok (W, i)) :
    (vt.lookup x = some i ∧ W = vt.setSlot i v) ∨
      ∃ hx : vt.lookup x = none, i = vt.slots.size ∧ W = vt.push x v hx := by
  obtain ⟨hres, hW⟩ := insert_eq_ok h
  rcases Option.eq_none_or_eq_some (vt.lookup x) with hx | ⟨j, hx⟩
  · refine .inr ⟨hx, ?_, insert_fresh_eq_ok hx h⟩
    rcases VarStore.insert_of_lookup_eq_none v hx with ⟨-, e, he⟩ | he <;> rw [he] at hres
    · cases hres
    · exact (Except.ok.inj hres).symm
  · rw [VarStore.insert_of_lookup v hx] at hres hW
    cases hres
    exact .inl ⟨hx, ext_store hW⟩

/-- A refused `insert` is the store's refusal. -/
theorem insert_eq_error {vt : VarTable} {x : String} {v : Value} {de : DataError}
    (h : vt.insert x v = .error de) : (vt.toVarStore.insert x v).1 = .error de := by
  unfold insert at h
  dsimp only at h
  cases hr : (vt.toVarStore.insert x v).1 with
  | error e =>
    rw [hr] at h
    cases h
    rfl
  | ok i =>
    rw [hr] at h
    cases h

/-- A fresh name is refused only when it is not a valid name or no id is left for a new slot. -/
theorem isValidName_of_insert_fresh_eq_error {vt : VarTable} {x : String} {v : Value}
    {de : DataError} (hx : vt.lookup x = none) (h : vt.insert x v = .error de) :
    isValidName x = false ∨ idLimit ≤ vt.slots.size := by
  have hres := insert_eq_error h
  rcases VarStore.insert_of_lookup_eq_none v hx with ⟨hbad, -⟩ | he
  · exact hbad
  · rw [he] at hres
    cases hres

theorem nameOf?_push (vt : VarTable) (x : String) (v : Value) (hx : vt.lookup x = none) (j : Nat) :
    (vt.push x v hx).nameOf? j = if j = vt.slots.size then some x else vt.nameOf? j :=
  VarStore.nameOf?_push _ x v j

theorem get?_push (vt : VarTable) (x : String) (v : Value) (hx : vt.lookup x = none) (j : Nat) :
    (vt.push x v hx).get? j = if j = vt.slots.size then some v else vt.get? j :=
  VarStore.get?_push _ x v j

/-- Every slot that holds a name is a slot of the table. -/
theorem lt_of_nameOf? {vt : VarTable} {j : Nat} {x : String} (h : vt.nameOf? j = some x) :
    j < vt.slots.size :=
  VarStore.lt_of_nameOf? h

theorem size_push (vt : VarTable) (x : String) (v : Value) (hx : vt.lookup x = none) :
    (vt.push x v hx).slots.size = vt.slots.size + 1 :=
  Array.size_push _

theorem lookup_push_self {vt : VarTable} {x : String} (v : Value) (hx : vt.lookup x = none) :
    (vt.push x v hx).lookup x = some vt.slots.size := by
  show (vt.toVarStore.push x v).lookup x = _
  rw [VarStore.lookup_push, if_pos rfl]

theorem lookup_push_ne {vt : VarTable} {x y : String} (v : Value) (hx : vt.lookup x = none)
    (hxy : y ≠ x) : (vt.push x v hx).lookup y = vt.lookup y := by
  show (vt.toVarStore.push x v).lookup y = _
  rw [VarStore.lookup_push, if_neg (Ne.symm hxy)]

theorem valueOf?_push_self {vt : VarTable} {x : String} (v : Value) (hx : vt.lookup x = none) :
    (vt.push x v hx).valueOf? x = some v := by
  rw [valueOf?, lookup_push_self v hx, Option.bind_some, get?_push, if_pos rfl]

theorem valueOf?_push_ne {vt : VarTable} {x y : String} (v : Value) (hx : vt.lookup x = none)
    (hxy : y ≠ x) : (vt.push x v hx).valueOf? y = vt.valueOf? y := by
  unfold valueOf?
  rw [lookup_push_ne v hx hxy]
  cases hy : vt.lookup y with
  | none => rfl
  | some j =>
    have hj := lt_of_nameOf? (lookup_eq_some_iff.mp hy)
    simp only [Option.bind_some, get?_push, if_neg (Nat.ne_of_lt hj)]

/-! ## Tables that differ in given slots -/

/-- `W` has the names and values of `V` outside the slots `S`; a slot of `S` keeps its name or
is emptied. -/
def SameOutside (V W : VarTable) (S : List Nat) : Prop :=
  (∀ j, j ∉ S → W.nameOf? j = V.nameOf? j ∧ W.get? j = V.get? j) ∧
    ∀ j ∈ S, W.nameOf? j = V.nameOf? j ∨ W.nameOf? j = none

namespace SameOutside

variable {V W U : VarTable} {S : List Nat}

theorem refl (V : VarTable) (S : List Nat) : SameOutside V V S :=
  ⟨fun _ _ => ⟨rfl, rfl⟩, fun _ _ => .inl rfl⟩

theorem trans (h₁ : SameOutside V W S) (h₂ : SameOutside W U S) : SameOutside V U S := by
  refine ⟨fun j hj => ?_, fun j hj => ?_⟩
  · obtain ⟨hn₁, hv₁⟩ := h₁.1 j hj
    obtain ⟨hn₂, hv₂⟩ := h₂.1 j hj
    exact ⟨hn₂.trans hn₁, hv₂.trans hv₁⟩
  · rcases h₂.2 j hj with hn₂ | hn₂
    · rw [hn₂]
      exact h₁.2 j hj
    · exact .inr hn₂

theorem mono {S' : List Nat} (h : SameOutside V W S) (hS : ∀ j ∈ S, j ∈ S') :
    SameOutside V W S' := by
  refine ⟨fun j hj => h.1 j fun hjS => hj (hS j hjS), fun j hj => ?_⟩
  by_cases hjS : j ∈ S
  · exact h.2 j hjS
  · exact .inl (h.1 j hjS).1

/-- Writing a slot of `S`. -/
theorem setSlot (W : VarTable) {i : Nat} (hi : i ∈ S) (v : Value) :
    SameOutside W (W.setSlot i v) S := by
  refine ⟨fun j hj => ⟨nameOf?_setSlot W i v j, ?_⟩, fun j _ => .inl (nameOf?_setSlot W i v j)⟩
  exact get?_setSlot_ne W v fun hji => hj (hji ▸ hi)

/-- Removing a variable whose slot is in `S`. -/
theorem remove {W' : VarTable} {y : String} {v : Value} {i : Nat} (h : W.remove y = .ok (W', v))
    (hi : W.lookup y = some i) (hiS : i ∈ S) : SameOutside W W' S := by
  obtain ⟨i', hi', hnone, hrest⟩ := remove_ok h
  rw [hi] at hi'
  cases hi'
  refine ⟨fun j hj => hrest j fun hji => hj (hji ▸ hiS), fun j _ => ?_⟩
  by_cases hji : j = i
  · subst hji
    exact .inr hnone
  · exact .inl (hrest j hji).1

/-- A name that no slot of `S` holds in `V` keeps its value. -/
theorem valueOf?_eq {x : String} (h : SameOutside V W S) (hx : ∀ j ∈ S, V.nameOf? j ≠ some x) :
    W.valueOf? x = V.valueOf? x := by
  have hnames : ∀ j, V.nameOf? j = some x ↔ W.nameOf? j = some x := by
    intro j
    by_cases hj : j ∈ S
    · refine ⟨fun hV => absurd hV (hx j hj), fun hW => ?_⟩
      rcases h.2 j hj with hn | hn
      · exact hn ▸ hW
      · rw [hn] at hW
        cases hW
    · rw [(h.1 j hj).1]
  unfold valueOf?
  rw [← lookup_congr hnames]
  cases hl : V.lookup x with
  | none => rfl
  | some i =>
    have hiS : i ∉ S := fun hiS => hx i hiS (lookup_eq_some_iff.mp hl)
    exact (h.1 i hiS).2


/-- Writing the old value back into a slot that kept its name takes the slot out of `S`. -/
theorem restore {i : Nat} {v : Value} (h : SameOutside V W (i :: S)) (hn : W.nameOf? i = V.nameOf? i)
    (hv : V.get? i = some v) : SameOutside V (W.setSlot i v) S := by
  refine ⟨fun j hj => ?_, fun j hj => ?_⟩
  · rw [nameOf?_setSlot]
    by_cases hji : j = i
    · subst hji
      have hsome : (W.nameOf? j).isSome := by rw [hn, ← isSome_get?, hv]; rfl
      exact ⟨hn, (get?_setSlot_self W v hsome).trans hv.symm⟩
    · have hj' : j ∉ i :: S := by simp [hji, hj]
      exact ⟨(h.1 j hj').1, (get?_setSlot_ne W v hji).trans (h.1 j hj').2⟩
  · rw [nameOf?_setSlot]
    exact h.2 j (List.mem_cons_of_mem _ hj)

end SameOutside

end VarTable

end SeriesCalc
