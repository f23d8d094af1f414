import Mathlib.Data.List.Sigma
import SeriesCalc.Proofs.Vars

/-!
# The variable store's index

Variables live in numbered slots and are found by name through an index (`VarStore`). Each
operation changes the slots and the index one after the other, and between the two steps the
views part: `remove` drops the name from the index before it empties the slot, `rename` drops the
old name before it indexes the new one. On the stores that the operations reach they never part:

* What each operation can do (`insert_cases`, `remove_cases`, `rename_cases`), guards included.
* `Op`: one call of an operation, with its outcome and the store it leaves (`Op.call`); `run`
  is a sequence of calls. The index agrees with the slots after every call (`Agrees.call`), a
  successful call moves the epoch on by one exactly when it removes or renames
  (`Op.epoch_call`), and a refused call leaves a store that agrees as it was
  (`Op.call_of_error`): `remove` fails after its first step only where the index gives an empty
  slot.
* With the index in agreement, the number of indexed names is the number of variables the store
  lists (`Agrees.size_eq_length_entries`).
* `Retired i`: slot `i` lies within the store and is empty. Removing a variable retires its
  slot, and no call fills an empty slot (`Retired.call`), so a removed variable's slot holds no
  value, is found by no name and is handed out by no insert under every later sequence of calls.
* **`table_calls_keep_index`** collects these for every store reached from the empty one.
-/

namespace SeriesCalc

namespace VarStore

variable {s : VarStore} {i : Nat}

/-! ## What each operation can do -/

/-- `insert` writes the slot of a known name, refuses with the store as it was, or puts a fresh
name in a new slot at the end. -/
theorem insert_cases (s : VarStore) (x : String) (v : Value) :
    (∃ i, s.lookup x = some i ∧ s.insert x v = (.ok i, s.setSlot i v)) ∨
      (∃ e, s.insert x v = (.error e, s)) ∨
      (s.lookup x = none ∧ s.insert x v = (.ok s.slots.size, s.push x v)) := by
  rcases Option.eq_none_or_eq_some (s.lookup x) with hx | ⟨i, hx⟩
  · rcases insert_of_lookup_eq_none v hx with ⟨-, e, he⟩ | he
    · exact .inr (.inl ⟨e, he⟩)
    · exact .inr (.inr ⟨hx, he⟩)
  · exact .inl ⟨i, hx, insert_of_lookup v hx⟩

/-- `remove` refuses a name the index lacks with the store as it was; a name indexed to an empty
slot leaves the index and is refused; otherwise the slot is emptied and the epoch moves on. -/
theorem remove_cases (s : VarStore) (x : String) :
    s.remove x = (.error (.unknownVar x), s) ∨
      (∃ i, s.lookup x = some i ∧ s.nameOf? i = none ∧
        s.remove x = (.error (.unknownVar x), { s with index := s.index.erase x })) ∨
      (∃ i n v, s.lookup x = some i ∧ s.slots[i]? = some (some (n, v)) ∧
        s.remove x = (.ok v,
          { slots := s.slots.set! i none, index := s.index.erase x, epoch := s.epoch + 1 })) := by
  unfold VarStore.remove
  cases s.lookup x with
  | none => exact .inl rfl
  | some i =>
    dsimp only
    rcases hs : s.slots[i]? with _ | _ | ⟨n, v⟩
    · exact .inr (.inl ⟨i, rfl, by simp [nameOf?, hs], rfl⟩)
    · exact .inr (.inl ⟨i, rfl, by simp [nameOf?, hs], rfl⟩)
    · exact .inr (.inr ⟨i, n, v, rfl, hs, rfl⟩)

/-- A slot that no variable fills holds no name. -/
theorem nameOf?_eq_none_of_slot (h : ∀ n v, s.slots[i]? ≠ some (some (n, v))) :
    s.nameOf? i = none := by
  cases hn : s.nameOf? i with
  | none => rfl
  | some y =>
    obtain ⟨w, hw⟩ := slot_of_nameOf? hn
    exact absurd hw (h y w)

/-- `rename` refuses with the store as it was, or gives the slot of the old name the new one,
moves the index entry over and moves the epoch on. -/
theorem rename_cases (s : VarStore) (old new : String) :
    (∃ e, s.rename old new = (.error e, s)) ∨
      ∃ i t, s.lookup new = none ∧ s.lookup old = some i ∧ s.rename old new = (.ok (), t) ∧
        t.index = (s.index.erase old).insert new i ∧ t.epoch = s.epoch + 1 ∧
        t.slots.size = s.slots.size ∧
        ∀ j, t.nameOf? j = if j = i then (s.nameOf? i).map fun _ => new else s.nameOf? j := by
  unfold VarStore.rename
  split
  · exact .inl ⟨_, rfl⟩
  split
  · exact .inl ⟨_, rfl⟩
  rename_i hnew
  rw [Std.TreeMap.contains_eq_isSome_getElem?] at hnew
  cases hold : s.lookup old with
  | none => exact .inl ⟨_, rfl⟩
  | some i =>
    refine .inr ⟨i, _, Option.not_isSome_iff_eq_none.mp hnew, rfl, rfl, rfl, rfl, ?_, fun j => ?_⟩
    · split
      · exact Array.size_setIfInBounds
      · rfl
    · split
      · rename_i n w hw
        rw [nameOf?_of_slots_set (Array.getElem?_eq_some_iff.mp hw).1 rfl]
        by_cases hji : j = i
        · simp [hji, nameOf?, hw]
        · simp [hji]
      · rename_i hno
        -- the slot holds no variable, so nothing is renamed
        show s.nameOf? j = _
        by_cases hji : j = i
        · rw [if_pos hji, hji, nameOf?_eq_none_of_slot fun n v h => hno n v h]
          rfl
        · rw [if_neg hji]

/-! ## Calls -/

/-- One call of an operation of the store. `take` moves a value out of its slot, leaving null
behind; `restore` puts a value back into a slot that holds a variable. -/
inductive Op where
  | insert (name : String) (v : Value)
  | remove (name : String)
  | rename (old new : String)
  | take (id : Nat)
  | restore (id : Nat) (v : Value)

namespace Op

/-- A call: whether it succeeded, and the store it leaves. -/
def call : Op → VarStore → Except DataError Unit × VarStore
  | .insert x v, s => ((s.insert x v).1.map fun _ => (), (s.insert x v).2)
  | .remove x, s => ((s.remove x).1.map fun _ => (), (s.remove x).2)
  | .rename old new, s => s.rename old new
  | .take i, s => (.ok (), (s.take i).1)
  | .restore i v, s => (.ok (), s.setSlot i v)

/-- Removal and renaming, the calls after which a remembered slot may name another variable. -/
def bumps : Op → Bool
  | .remove _ | .rename .. => true
  | _ => false

/-- A successful call moves the epoch on by one exactly when it removes or renames. -/
theorem epoch_call {op : Op} (h : (op.call s).1 = .ok ()) :
    (op.call s).2.epoch = s.epoch + if op.bumps then 1 else 0 := by
  cases op with
  | insert x v =>
    rcases insert_cases s x v with ⟨i, -, he⟩ | ⟨e, he⟩ | ⟨-, he⟩ <;>
      simp only [call, he, Except.map] at h ⊢
    · simp [bumps]
    · cases h
    · rfl
  | remove x =>
    rcases remove_cases s x with he | ⟨i, -, -, he⟩ | ⟨i, n, v, -, -, he⟩ <;>
      simp only [call, he, Except.map] at h ⊢
    · cases h
    · cases h
    · rfl
  | rename old new =>
    rcases rename_cases s old new with ⟨e, he⟩ | ⟨i, t, -, -, he, -, hepoch, -⟩ <;>
      simp only [call, he] at h ⊢
    · cases h
    · exact hepoch
  | take i => simp [call, bumps, VarStore.take]
  | restore i v => simp [call, bumps]

/-- A refused call leaves a store whose index agrees as it was: the only refusal after a first
step is `remove` of a name indexed to an empty slot. -/
theorem call_of_error (hs : s.Agrees) {op : Op} {e : DataError} (h : (op.call s).1 = .error e) :
    (op.call s).2 = s := by
  cases op with
  | insert x v =>
    rcases insert_cases s x v with ⟨i, -, he⟩ | ⟨e', he⟩ | ⟨-, he⟩ <;>
      simp only [call, he, Except.map] at h ⊢
    · cases h
    · cases h
  | remove x =>
    rcases remove_cases s x with he | ⟨i, hi, hn, -⟩ | ⟨i, n, v, -, -, he⟩
    · simp only [call, he]
    · -- an index that agrees gives no empty slot
      rw [(hs x i).mp hi] at hn
      cases hn
    · simp only [call, he, Except.map] at h
      cases h
  | rename old new =>
    rcases rename_cases s old new with ⟨e', he⟩ | ⟨i, t, -, -, he, -⟩ <;>
      simp only [call, he] at h ⊢
    cases h
  | take i => cases h
  | restore i v => cases h

end Op

/-- The store after a sequence of calls. -/
def run (s : VarStore) (ops : List Op) : VarStore := ops.foldl (fun s op => (op.call s).2) s

@[simp] theorem run_nil (s : VarStore) : s.run [] = s := rfl

@[simp] theorem run_cons (s : VarStore) (op : Op) (ops : List Op) :
    s.run (op :: ops) = (op.call s).2.run ops := rfl

/-! ## The index agrees after every call -/

theorem Agrees.call (h : s.Agrees) : ∀ op : Op, (op.call s).2.Agrees
  | .insert x v => h.insert x v
  | .remove x => h.remove x
  | .rename old new => h.rename old new
  | .take i => h.setSlot i .null
  | .restore i v => h.setSlot i v

theorem Agrees.run (h : s.Agrees) (ops : List Op) : (s.run ops).Agrees := by
  induction ops generalizing s with
  | nil => exact h
  | cons op ops ih => exact ih (h.call op)

/-! ## Counting variables -/

/-- The store lists a variable exactly where a slot holds it. -/
theorem mem_entries {x : String} {v : Value} :
    (i, x, v) ∈ s.entries ↔ s.slots[i]? = some (some (x, v)) := by
  simp only [entries, List.mem_filterMap, List.mem_zipIdx_iff_getElem?, Array.getElem?_toList]
  constructor
  · rintro ⟨⟨o, j⟩, hj, ho⟩
    rcases o with _ | ⟨n, w⟩
    · cases ho
    · simp only [Option.map_some, Option.some.injEq, Prod.mk.injEq] at ho
      obtain ⟨rfl, rfl, rfl⟩ := ho
      exact hj
  · intro h
    exact ⟨(some (x, v), i), h, rfl⟩

/-- Each slot is listed at most once. -/
theorem nodup_entries (s : VarStore) : s.entries.Nodup := by
  refine List.Nodup.filterMap ?_ ((List.nodup_zipIdx_map_snd _).of_map Prod.snd)
  rintro ⟨_ | ⟨n, v⟩, j⟩ ⟨_ | ⟨n', v'⟩, j'⟩ b hb hb' <;>
    simp only [Option.map_none, Option.map_some, Option.mem_def, Option.some.injEq,
      reduceCtorEq] at hb hb'
  subst hb
  cases hb'
  rfl

/-- With the index in agreement, the number of indexed names is the number of variables the
store lists. -/
theorem Agrees.size_eq_length_entries (h : s.Agrees) : s.size = s.entries.length := by
  -- no name is listed twice: two slots that hold it are one slot
  have hnames : (s.entries.map (·.2.1)).Nodup := by
    refine s.nodup_entries.map_on ?_
    rintro ⟨j, x, v⟩ hj ⟨k, y, w⟩ hk (rfl : x = y)
    have hj' := mem_entries.mp hj
    have hk' := mem_entries.mp hk
    obtain rfl : j = k := h.nameOf?_inj (x := x) (by simp [nameOf?, hj']) (by simp [nameOf?, hk'])
    rw [hj', Option.some.injEq, Option.some.injEq, Prod.mk.injEq] at hk'
    rw [hk'.2]
  -- the listed names are the index's keys
  have hperm : (s.entries.map (·.2.1)).Perm s.index.keys := by
    refine (List.perm_ext_iff_of_nodup hnames Std.TreeMap.nodup_keys).mpr fun x => ?_
    rw [Std.TreeMap.mem_keys, Std.TreeMap.mem_iff_isSome_getElem?, List.mem_map]
    constructor
    · rintro ⟨⟨j, y, v⟩, hj, rfl⟩
      have hname : s.nameOf? j = some y := by simp [nameOf?, mem_entries.mp hj]
      show (s.lookup y).isSome
      rw [(h y j).mpr hname]
      rfl
    · intro hx
      obtain ⟨j, hj⟩ := Option.isSome_iff_exists.mp hx
      obtain ⟨v, hv⟩ := slot_of_nameOf? ((h x j).mp hj)
      exact ⟨(j, x, v), mem_entries.mpr hv, rfl⟩
  rw [size, ← Std.TreeMap.length_keys, ← hperm.length_eq, List.length_map]

/-! ## Retired slots -/

/-- Slot `i` lies within the store and holds no variable. -/
def Retired (s : VarStore) (i : Nat) : Prop := i < s.slots.size ∧ s.nameOf? i = none

theorem Retired.setSlot (h : s.Retired i) (j : Nat) (v : Value) : (s.setSlot j v).Retired i :=
  ⟨(size_setSlot s j v).symm ▸ h.1, (nameOf?_setSlot s j v i).trans h.2⟩

theorem Retired.push (h : s.Retired i) (x : String) (v : Value) : (s.push x v).Retired i := by
  refine ⟨(Array.size_push _).symm ▸ Nat.lt_succ_of_lt h.1, ?_⟩
  rw [nameOf?_push, if_neg (Nat.ne_of_lt h.1), h.2]

/-- Removing a variable retires its slot. -/
theorem Agrees.retired_remove (h : s.Agrees) {x : String} (hx : s.lookup x = some i) :
    (s.remove x).2.Retired i := by
  obtain ⟨v, -, hrem⟩ := h.remove_of_lookup hx
  have hlt := lt_of_nameOf? ((h x i).mp hx)
  rw [hrem]
  refine ⟨by simpa using hlt, ?_⟩
  rw [nameOf?_of_slots_set hlt rfl, if_pos rfl]
  rfl

/-- No call fills an empty slot: writes go to slots that hold a variable, and a new variable goes
past the end. -/
theorem Retired.call (h : s.Retired i) : ∀ op : Op, (op.call s).2.Retired i
  | .insert x v => by
    rcases insert_cases s x v with ⟨j, -, he⟩ | ⟨e, he⟩ | ⟨-, he⟩ <;> simp only [Op.call, he]
    · exact h.setSlot j v
    · exact h
    · exact h.push x v
  | .remove x => by
    rcases remove_cases s x with he | ⟨j, -, -, he⟩ | ⟨j, n, w, -, hj, he⟩ <;>
      simp only [Op.call, he]
    · exact h
    · exact h
    · have hlt := (Array.getElem?_eq_some_iff.mp hj).1
      refine ⟨by simpa using h.1, ?_⟩
      rw [nameOf?_of_slots_set hlt rfl]
      split
      · rfl
      · exact h.2
  | .rename old new => by
    rcases rename_cases s old new with ⟨e, he⟩ | ⟨j, t, -, -, he, -, -, hsize, hname⟩ <;>
      simp only [Op.call, he]
    · exact h
    · refine ⟨hsize ▸ h.1, ?_⟩
      rw [hname]
      split
      · rename_i hij
        rw [← hij, h.2]
        rfl
      · exact h.2
  | .take j => h.setSlot j .null
  | .restore j v => h.setSlot j v

theorem Retired.run (h : s.Retired i) (ops : List Op) : (s.run ops).Retired i := by
  induction ops generalizing s with
  | nil => exact h
  | cons op ops ih => exact ih (h.call op)

/-- A retired slot holds no value. -/
theorem Retired.get?_eq_none (h : s.Retired i) : s.get? i = none := by
  have hs := isSome_get? s i
  rw [h.2] at hs
  exact Option.not_isSome_iff_eq_none.mp (by simpa using hs)

/-- An index that agrees sends no name to a retired slot. -/
theorem Retired.lookup_ne (h : s.Retired i) (ha : s.Agrees) (y : String) : s.lookup y ≠ some i :=
  fun hy => by
    have hnone := h.2
    rw [(ha y i).mp hy] at hnone
    cases hnone

/-- An insert hands out an indexed slot or a new one past the end, never a retired slot. -/
theorem Retired.insert_ne (h : s.Retired i) (ha : s.Agrees) (y : String) (w : Value) :
    (s.insert y w).1 ≠ .ok i := by
  rcases insert_cases s y w with ⟨j, hy, he⟩ | ⟨e, he⟩ | ⟨-, he⟩ <;> rw [he] <;> intro hj
  · cases hj
    exact h.lookup_ne ha y hy
  · cases hj
  · cases hj
    exact Nat.lt_irrefl _ h.1

/-! ## The index, always -/

/-- **The store's calls keep its index.** On every store reached from the empty one by calls, the
index gives each name exactly the slot that holds it, no two slots hold one name, and the number
of indexed names is the number of variables listed. Inserting an indexed name keeps its slot.
Removing an indexed name returns the value of its slot, and after every later sequence of calls
that slot holds no value, no name finds it and no insert hands it out. A successful call moves
the epoch on by one when it removes or renames and leaves it otherwise, and a refused call leaves
the store as it was. -/
theorem table_calls_keep_index (ops : List Op) :
    let s := run {} ops
    s.Agrees ∧ (∀ i j x, s.nameOf? i = some x → s.nameOf? j = some x → i = j) ∧
      s.size = s.entries.length ∧
      (∀ x v i, s.lookup x = some i →
        (s.insert x v).1 = .ok i ∧ (s.insert x v).2.lookup x = some i) ∧
      (∀ x i, s.lookup x = some i →
        (∃ v, s.get? i = some v ∧ (s.remove x).1 = .ok v) ∧
        ∀ later, ((s.remove x).2.run later).get? i = none ∧
          (∀ y, ((s.remove x).2.run later).lookup y ≠ some i) ∧
          ∀ y w, (((s.remove x).2.run later).insert y w).1 ≠ .ok i) ∧
      (∀ op : Op, (op.call s).1 = .ok () →
        (op.call s).2.epoch = s.epoch + if op.bumps then 1 else 0) ∧
      (∀ (op : Op) e, (op.call s).1 = .error e → (op.call s).2 = s) := by
  intro s
  have ha : s.Agrees := Agrees.empty.run ops
  refine ⟨ha, fun _ _ _ hi hj => ha.nameOf?_inj hi hj, ha.size_eq_length_entries,
    fun x v i hx => ?_, fun x i hx => ?_, fun _ h => Op.epoch_call h,
    fun _ _ h => Op.call_of_error ha h⟩
  · rw [insert_of_lookup v hx]
    exact ⟨rfl, by rw [lookup_setSlot, hx]⟩
  · obtain ⟨v, hv, hrem⟩ := ha.remove_of_lookup hx
    have hr := (ha.retired_remove hx).run
    have ha' := (ha.remove x).run
    refine ⟨⟨v, hv, by rw [hrem]⟩, fun later => ?_⟩
    exact ⟨(hr later).get?_eq_none, (hr later).lookup_ne (ha' later),
      (hr later).insert_ne (ha' later)⟩

/-- After `a` is inserted into slot 0 and removed, inserting `a` again puts it into a new slot
and leaves slot 0 empty. -/
theorem reinserted_variable_skips_retired_slot :
    (run {} [.insert "a" (.scalar 1)]).lookup "a" = some 0 ∧
      ((run {} [.insert "a" (.scalar 1)]).remove "a").1 = .ok (.scalar 1) ∧
      ((((run {} [.insert "a" (.scalar 1)]).remove "a").2.run []).insert "a" (.scalar 2)).1 = .ok 1 ∧
      (((run {} [.insert "a" (.scalar 1)]).remove "a").2.run [.insert "a" (.scalar 2)]).get? 0 =
        none :=
  have hl : (run {} [.insert "a" (.scalar 1)]).lookup "a" = some 0 := by decide +kernel
  have hkeep := (table_calls_keep_index [.insert "a" (.scalar 1)]).2.2.2.2.1 "a" 0 hl
  have hv : (run {} [.insert "a" (.scalar 1)]).get? 0 = some (.scalar 1) := rfl
  ⟨hl, by
    obtain ⟨v, hv', hrem⟩ := hkeep.1
    rw [hv] at hv'
    cases hv'
    exact hrem, rfl, (hkeep.2 [.insert "a" (.scalar 2)]).1⟩

end VarStore

end SeriesCalc
