import SeriesCalc.Data.Error
import SeriesCalc.Data.Index
import SeriesCalc.Value.Basic

/-!
# The variable store

Named user values in numbered slots, and an index from names to slots. A slot keeps its number
for the variable's life, so a statement may remember it; removing a variable empties its slot for
good. The epoch counts removals and renames, the changes after which a remembered slot may name
another variable. Listing order is slot order, that is, order of first definition.

Each operation changes the slots and the index one after the other, in the program's order:

* `insert` writes the slot the index gives a known name; a new, valid name gets a new slot at the
  end, if its number is below `idLimit`, and then its index entry.
* `remove` takes the name out of the index, then empties the slot the index gave.
* `rename` checks the new name, takes the old one out of the index, renames the slot and indexes
  the new name.

An operation returns its result with the store it leaves, since `remove` can fail after it has
changed the index. `Agrees`: the index gives each name exactly the slot that holds it. Every
operation keeps it (`Agrees.insert`, `Agrees.remove`, `Agrees.rename`, `Agrees.setSlot`), and a
`VarTable` is a store that has it.
-/

namespace SeriesCalc

/-- Variables in numbered slots, an index from their names to their slots, and the epoch. -/
structure VarStore where
  slots : Array (Option (String × Value)) := #[]
  index : Std.TreeMap String Nat := ∅
  epoch : Nat := 0
deriving Inhabited

namespace VarStore

/-- The slot of a name, as the index gives it. -/
def lookup (s : VarStore) (name : String) : Option Nat := s.index[name]?

def get? (s : VarStore) (id : Nat) : Option Value := (s.slots[id]?).bind (·.map (·.2))

def nameOf? (s : VarStore) (id : Nat) : Option String := (s.slots[id]?).bind (·.map (·.1))

/-- Number of variables: the names in the index. -/
def size (s : VarStore) : Nat := s.index.size

/-- The variables in slot order. -/
def entries (s : VarStore) : List (Nat × String × Value) :=
  (s.slots.toList.zipIdx).filterMap fun (v, i) => v.map fun (n, x) => (i, n, x)

/-- Replace the value in a slot, if the slot holds a variable (the program's `restore`). -/
def setSlot (s : VarStore) (id : Nat) (v : Value) : VarStore :=
  match s.slots[id]? with
  | some (some (n, _)) => { s with slots := s.slots.set! id (some (n, v)) }
  | _ => s

/-- Move a value out of its slot, leaving null behind. -/
def take (s : VarStore) (id : Nat) : VarStore × Option Value := (s.setSlot id .null, s.get? id)

/-- A new slot at the end for `name`, then its index entry. -/
def push (s : VarStore) (name : String) (v : Value) : VarStore :=
  { s with slots := s.slots.push (some (name, v)), index := s.index.insert name s.slots.size }

/-- Define or overwrite a variable. A known name keeps its slot; a new name must be valid and
needs a slot number below `idLimit`. -/
def insert (s : VarStore) (name : String) (v : Value) : Except DataError Nat × VarStore :=
  match s.lookup name with
  | some id => (.ok id, s.setSlot id v)
  | none =>
    if !isValidName name then (.error (.invalidName name), s)
    else if idLimit ≤ s.slots.size then (.error (.badStructure "too many variables"), s)
    else (.ok s.slots.size, s.push name v)

/-- Remove a variable, returning its value. The name leaves the index before its slot is emptied,
so a name indexed to an empty slot is reported unknown with its entry gone. -/
def remove (s : VarStore) (name : String) : Except DataError Value × VarStore :=
  match s.lookup name with
  | none => (.error (.unknownVar name), s)
  | some id =>
    let s' := { s with index := s.index.erase name }
    match s.slots[id]? with
    | some (some (_, v)) => (.ok v, { s' with slots := s.slots.set! id none, epoch := s.epoch + 1 })
    | _ => (.error (.unknownVar name), s')

/-- Give a variable a new name. The new name is checked first; then the old name leaves the index,
the slot takes the new name, and the new name is indexed to the slot. -/
def rename (s : VarStore) (old new : String) : Except DataError Unit × VarStore :=
  if !isValidName new then (.error (.invalidName new), s)
  else if s.index.contains new then (.error (.duplicateName new), s)
  else match s.lookup old with
    | none => (.error (.unknownVar old), s)
    | some id =>
      let slots := match s.slots[id]? with
        | some (some (_, v)) => s.slots.set! id (some (new, v))
        | _ => s.slots
      (.ok (), { slots, index := (s.index.erase old).insert new id, epoch := s.epoch + 1 })

/-! ## Slots and index entries after each step -/

theorem lookup_push (s : VarStore) (x : String) (v : Value) (y : String) :
    (s.push x v).lookup y = if x = y then some s.slots.size else s.lookup y := by
  simp only [lookup, push, Std.TreeMap.getElem?_insert, Std.compare_eq_iff_eq]

theorem nameOf?_push (s : VarStore) (x : String) (v : Value) (j : Nat) :
    (s.push x v).nameOf? j = if j = s.slots.size then some x else s.nameOf? j := by
  simp only [nameOf?, push, Array.getElem?_push]
  split <;> rfl

theorem get?_push (s : VarStore) (x : String) (v : Value) (j : Nat) :
    (s.push x v).get? j = if j = s.slots.size then some v else s.get? j := by
  simp only [get?, push, Array.getElem?_push]
  split <;> rfl

/-- A slot holds a value exactly when it holds a name. -/
theorem isSome_get? (s : VarStore) (j : Nat) : (s.get? j).isSome = (s.nameOf? j).isSome := by
  unfold get? nameOf?
  cases s.slots[j]? with
  | none => rfl
  | some o => cases o <;> rfl

/-- Every slot that holds a name is a slot of the store. -/
theorem lt_of_nameOf? {s : VarStore} {j : Nat} {x : String} (h : s.nameOf? j = some x) :
    j < s.slots.size := by
  rcases Nat.lt_or_ge j s.slots.size with hj | hge
  · exact hj
  · simp [nameOf?, Array.getElem?_eq_none hge] at h

/-- The slot that holds a name holds a variable of that name. -/
theorem slot_of_nameOf? {s : VarStore} {j : Nat} {x : String} (h : s.nameOf? j = some x) :
    ∃ v, s.slots[j]? = some (some (x, v)) := by
  unfold nameOf? at h
  cases hs : s.slots[j]? with
  | none => simp [hs] at h
  | some o =>
    rw [hs] at h
    rcases o with _ | ⟨n, v⟩
    · cases h
    · cases h
      exact ⟨v, rfl⟩

/-- The names of a store whose slot `id` now holds `o`. -/
theorem nameOf?_of_slots_set {s t : VarStore} {id : Nat} {o : Option (String × Value)}
    (hid : id < s.slots.size) (ht : t.slots = s.slots.set! id o) (j : Nat) :
    t.nameOf? j = if j = id then o.map (·.1) else s.nameOf? j := by
  simp only [nameOf?, ht, Array.set!_eq_setIfInBounds, Array.getElem?_setIfInBounds]
  by_cases hj : id = j
  · subst hj
    simp [hid]
  · simp [hj, Ne.symm hj]

theorem get?_of_slots_set {s t : VarStore} {id : Nat} {o : Option (String × Value)}
    (hid : id < s.slots.size) (ht : t.slots = s.slots.set! id o) (j : Nat) :
    t.get? j = if j = id then o.map (·.2) else s.get? j := by
  simp only [get?, ht, Array.set!_eq_setIfInBounds, Array.getElem?_setIfInBounds]
  by_cases hj : id = j
  · subst hj
    simp [hid]
  · simp [hj, Ne.symm hj]

@[simp] theorem lookup_setSlot (s : VarStore) (i : Nat) (v : Value) (x : String) :
    (s.setSlot i v).lookup x = s.lookup x := by
  unfold setSlot
  split <;> rfl

@[simp] theorem nameOf?_setSlot (s : VarStore) (i : Nat) (v : Value) (j : Nat) :
    (s.setSlot i v).nameOf? j = s.nameOf? j := by
  unfold setSlot
  split
  · rename_i n w h
    have hi := (Array.getElem?_eq_some_iff.mp h).1
    rw [nameOf?_of_slots_set hi rfl]
    split
    · subst_vars
      simp [nameOf?, h]
    · rfl
  · rfl

@[simp] theorem epoch_setSlot (s : VarStore) (i : Nat) (v : Value) : (s.setSlot i v).epoch = s.epoch := by
  unfold setSlot
  split <;> rfl

theorem size_setSlot (s : VarStore) (i : Nat) (v : Value) :
    (s.setSlot i v).slots.size = s.slots.size := by
  unfold setSlot
  split
  · exact Array.size_setIfInBounds
  · rfl

theorem get?_setSlot_ne (s : VarStore) {i j : Nat} (v : Value) (h : j ≠ i) :
    (s.setSlot i v).get? j = s.get? j := by
  unfold setSlot
  split
  · simp only [get?, Array.set!_eq_setIfInBounds, Array.getElem?_setIfInBounds_ne (Ne.symm h)]
  · rfl

/-- Writing a slot that holds no variable changes nothing. -/
theorem setSlot_of_nameOf?_eq_none (s : VarStore) {i : Nat} (v : Value) (h : s.nameOf? i = none) :
    s.setSlot i v = s := by
  unfold setSlot
  split
  · rename_i n w hslot
    simp [nameOf?, hslot] at h
  · rfl

theorem get?_setSlot_self (s : VarStore) {i : Nat} (v : Value) (h : (s.nameOf? i).isSome) :
    (s.setSlot i v).get? i = some v := by
  obtain ⟨x, hx⟩ := Option.isSome_iff_exists.mp h
  obtain ⟨w, hw⟩ := slot_of_nameOf? hx
  unfold setSlot
  rw [hw]
  simp [get?, Array.getElem?_setIfInBounds_self_of_lt (Array.getElem?_eq_some_iff.mp hw).1]

/-! ## The index agrees with the slots -/

/-- The index gives each name exactly the slot that holds it. -/
def Agrees (s : VarStore) : Prop := ∀ x i, s.lookup x = some i ↔ s.nameOf? i = some x

theorem Agrees.empty : ({} : VarStore).Agrees := by
  intro x i
  simp [lookup, nameOf?]

variable {s : VarStore}

/-- Where the index agrees, no two slots hold one name. -/
theorem Agrees.nameOf?_inj (h : s.Agrees) {i j : Nat} {x : String} (hi : s.nameOf? i = some x)
    (hj : s.nameOf? j = some x) : i = j :=
  Option.some.inj (((h x i).mpr hi).symm.trans ((h x j).mpr hj))

theorem Agrees.lookup_eq_none_iff (h : s.Agrees) {x : String} :
    s.lookup x = none ↔ ∀ j, s.nameOf? j ≠ some x := by
  constructor
  · intro hx j hj
    rw [(h x j).mpr hj] at hx
    cases hx
  · intro hx
    cases hl : s.lookup x with
    | none => rfl
    | some j => exact absurd ((h x j).mp hl) (hx j)

theorem Agrees.setSlot (h : s.Agrees) (i : Nat) (v : Value) : (s.setSlot i v).Agrees := by
  intro x j
  rw [lookup_setSlot, nameOf?_setSlot]
  exact h x j

/-- A new name in a new slot. -/
theorem Agrees.push (h : s.Agrees) {x : String} (hx : s.lookup x = none) (v : Value) :
    (s.push x v).Agrees := by
  have hend : s.nameOf? s.slots.size = none := by simp [nameOf?]
  exact NameIndex.agree_insert h hend hx (nameOf?_push s x v)

theorem Agrees.insert (h : s.Agrees) (x : String) (v : Value) : (s.insert x v).2.Agrees := by
  unfold VarStore.insert
  split
  · exact h.setSlot _ v
  · rename_i hx
    split
    · exact h
    split
    · exact h
    · exact h.push hx v

/-- An indexed name's slot is written in place. -/
theorem insert_of_lookup {x : String} {i : Nat} (v : Value) (hx : s.lookup x = some i) :
    s.insert x v = (.ok i, s.setSlot i v) := by
  unfold VarStore.insert
  rw [hx]

/-- A name the index lacks is refused, with the store as it was, when it is not valid or no id is
left for a new slot; otherwise it goes into a new slot at the end. -/
theorem insert_of_lookup_eq_none {x : String} (v : Value) (hx : s.lookup x = none) :
    ((isValidName x = false ∨ idLimit ≤ s.slots.size) ∧ ∃ e, s.insert x v = (.error e, s)) ∨
      s.insert x v = (.ok s.slots.size, s.push x v) := by
  unfold VarStore.insert
  rw [hx]
  dsimp only
  split
  · rename_i hinvalid
    exact .inl ⟨.inl (by simpa using hinvalid), _, rfl⟩
  split
  · rename_i hfull
    exact .inl ⟨.inr hfull, _, rfl⟩
  · exact .inr rfl

/-- A name the index does not hold is refused, and the store stays as it was. -/
theorem remove_of_lookup_none {x : String} (hx : s.lookup x = none) :
    s.remove x = (.error (.unknownVar x), s) := by
  unfold VarStore.remove
  rw [hx]

/-- On a store that agrees, removing a held name drops its index entry, empties its slot and
moves the epoch on. -/
theorem Agrees.remove_of_lookup (h : s.Agrees) {x : String} {i : Nat} (hx : s.lookup x = some i) :
    ∃ v, s.get? i = some v ∧
      s.remove x = (.ok v, { slots := s.slots.set! i none, index := s.index.erase x, epoch := s.epoch + 1 }) := by
  obtain ⟨v, hv⟩ := slot_of_nameOf? ((h x i).mp hx)
  refine ⟨v, by simp [get?, hv], ?_⟩
  unfold VarStore.remove
  rw [hx]
  simp only [hv]

theorem Agrees.remove (h : s.Agrees) (x : String) : (s.remove x).2.Agrees := by
  rcases Option.eq_none_or_eq_some (s.lookup x) with hx | ⟨i, hx⟩
  · rw [remove_of_lookup_none hx]
    exact h
  · have hname : s.nameOf? i = some x := (h x i).mp hx
    obtain ⟨v, -, hrem⟩ := h.remove_of_lookup hx
    rw [hrem]
    exact NameIndex.agree_erase h hname (nameOf?_of_slots_set (o := none) (lt_of_nameOf? hname) rfl)

theorem Agrees.rename (h : s.Agrees) (old new : String) : (s.rename old new).2.Agrees := by
  unfold VarStore.rename
  split
  · exact h
  split
  · exact h
  rename_i hnew
  rw [Std.TreeMap.contains_eq_isSome_getElem?] at hnew
  have hfresh : s.lookup new = none := Option.not_isSome_iff_eq_none.mp hnew
  split
  · exact h
  rename_i i hi
  have hold : s.nameOf? i = some old := (h old i).mp hi
  obtain ⟨w, hw⟩ := slot_of_nameOf? hold
  simp only [hw]
  exact NameIndex.agree_rename h hold hfresh
    (nameOf?_of_slots_set (o := some (new, w)) (Array.getElem?_eq_some_iff.mp hw).1 rfl)

end VarStore

end SeriesCalc
