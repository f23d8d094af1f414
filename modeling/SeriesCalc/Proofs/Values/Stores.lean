import SeriesCalc.Eval.Machine
import SeriesCalc.Proofs.Cells.Bookkeeping
import SeriesCalc.Proofs.Vars
import SeriesCalc.Proofs.Calls.Table
import SeriesCalc.Proofs.Values.Invariant

/-!
# Where values are stored

Evaluation keeps values in the variables, in the cells of the statement being run and in the
cells that the compiled copies of user functions keep from one call to the next (the dataset
holds float samples, not values). `Every c` says that each value stored in one of these
places satisfies `c` throughout:

* `VarTable.Every`, and `CellStore.Every` for the values the cells own (an alias cell stands
  for storage elsewhere and owns nothing);
* `UserFunction.Every` for the cells of its statements, `FunctionTable.Every` for the compiled
  copies the table holds;
* `Workspace.Every` (variables and function table) and `Machine.Every` (workspace and cells).

Each operation on a store keeps `Every` once what it stores is accepted (`VarTable.Every.setSlot`,
`CellStore.Every.restore`, ...). Reading a cell gives an accepted operand
(`CellStore.Every.read`): a value the cell owns, a dataset series, or a variable or a part of
one.
-/

namespace SeriesCalc

variable {c : Value → Bool}

namespace VarTable

/-- Every variable's value satisfies `c` throughout. -/
def Every (c : Value → Bool) (vt : VarTable) : Prop :=
  ∀ id v, vt.get? id = some v → v.throughout c = true

theorem every_empty : ({} : VarTable).Every c := fun id v h => by
  simp [VarStore.get?] at h

/-- A slot read after a write holds the written value or what it held before. -/
theorem get?_setSlot_cases (vt : VarTable) (i : Nat) (v : Value) {j : Nat} {w : Value}
    (h : (vt.setSlot i v).get? j = some w) : w = v ∨ vt.get? j = some w := by
  by_cases hj : j = i
  · subst hj
    cases hs : vt.nameOf? j with
    | some x =>
      rw [get?_setSlot_self vt v (by rw [hs]; rfl)] at h
      exact .inl (Option.some.inj h).symm
    | none =>
      -- a slot that holds no variable is not written
      rw [toVarStore_setSlot, VarStore.setSlot_of_nameOf?_eq_none _ v hs] at h
      exact .inr h
  · exact .inr (by rwa [get?_setSlot_ne vt v hj] at h)

variable {vt W : VarTable}

theorem Every.setSlot (h : vt.Every c) {v : Value} (hv : v.throughout c = true) (i : Nat) :
    (vt.setSlot i v).Every c := fun j w hw => by
  rcases get?_setSlot_cases vt i v hw with rfl | hw
  · exact hv
  · exact h j w hw

theorem Every.insert (h : vt.Every c) {name : String} {v : Value} (hv : v.throughout c = true)
    {i : Nat} (hi : vt.insert name v = .ok (W, i)) : W.Every c := by
  rcases insert_ok_cases hi with ⟨-, rfl⟩ | ⟨hx, -, rfl⟩
  · exact h.setSlot hv _
  · intro j w hw
    rw [get?_push] at hw
    split at hw
    · cases hw
      exact hv
    · exact h j w hw

theorem Every.remove (h : vt.Every c) {name : String} {v : Value} (hr : vt.remove name = .ok (W, v)) :
    W.Every c := by
  obtain ⟨i, -, hi, hrest⟩ := remove_ok hr
  intro j w hw
  by_cases hj : j = i
  · -- the emptied slot holds nothing
    subst hj
    have : (W.get? j).isSome = false := by rw [isSome_get?, hi]; rfl
    rw [hw] at this
    cases this
  · exact h j w ((hrest j hj).2 ▸ hw)

/-- Taking a value out leaves null behind; the value taken is accepted. -/
theorem Every.take (h : vt.Every c) (hnull : Value.null.throughout c = true) (i : Nat) :
    (vt.take i).1.Every c ∧ ∀ v, (vt.take i).2 = some v → v.throughout c = true :=
  ⟨h.setSlot hnull i, fun v hv => h i v hv⟩

end VarTable

namespace Cell

/-- The value a cell owns, if it owns one, satisfies `c` throughout. -/
def Accepts (c : Value → Bool) (cell : Cell) : Prop :=
  ∀ v, cell.payload = .owned v → v.throughout c = true

theorem accepts_alias {cell : Cell} {h : Handle} (hp : cell.payload = .alias h) : cell.Accepts c :=
  fun v hv => by rw [hp] at hv; cases hv

theorem accepts_owned {cell : Cell} {v : Value} (hp : cell.payload = .owned v)
    (hv : v.throughout c = true) : cell.Accepts c :=
  fun w hw => by
    rw [hp] at hw
    cases hw
    exact hv

end Cell

namespace CellStore

/-- Every value a cell owns satisfies `c` throughout. -/
def Every (c : Value → Bool) (s : CellStore) : Prop :=
  ∀ id cell, s.cell? id = some cell → cell.Accepts c

variable {s : CellStore}

theorem every_empty : ({} : CellStore).Every c := fun id cell h => by
  simp [cell?] at h

theorem Every.setLink (h : s.Every c) (pos : Nat) (l : Link) : (s.setLink pos l).Every c := h

/-- Changing a cell into an accepted one. -/
theorem Every.modifyCell (h : s.Every c) {id : Nat} {f : Cell → Cell}
    (hf : ∀ cell, s.cell? id = some cell → (f cell).Accepts c) : (s.modifyCell id f).Every c := by
  intro j cell hj
  rw [cell?_modifyCell] at hj
  split at hj
  · subst_vars
    obtain ⟨old, hold, rfl⟩ := Option.map_eq_some_iff.mp hj
    exact hf old hold
  · exact h j cell hj

/-- Overwriting a cell number with an accepted cell, or with nothing. -/
theorem Every.of_set (h : s.Every c) {s' : CellStore} {id : Nat} {x : Option Cell}
    (hs : s'.cells = s.cells.set! id x) (hx : ∀ cell, x = some cell → cell.Accepts c) :
    s'.Every c := by
  intro j cell hj
  by_cases hid : id < s.cells.size
  · rw [cell?_of_set s' hs hid] at hj
    split at hj
    · exact hx cell hj
    · exact h j cell hj
  · -- a number past the cells changes nothing
    have hsame : s'.cell? j = s.cell? j := by
      unfold cell?
      rw [hs, Array.set!_eq_setIfInBounds, Array.setIfInBounds_def, dif_neg hid]
    exact h j cell (hsame ▸ hj)

theorem Every.release (h : s.Every c) (id : Nat) : (s.release id).Every c := by
  cases hc : s.cell? id with
  | none =>
    unfold CellStore.release
    rw [hc]
    exact h
  | some cell =>
    rcases release_of_cell? hc with ⟨-, hs, -⟩ | ⟨-, hs, -⟩
    · exact h.of_set hs fun _ hx => by cases hx
    · -- the cell loses one count and keeps its content
      exact h.of_set hs fun _ hx => by
        cases hx
        exact h id cell hc

/-- A new cell with accepted content. -/
theorem Every.alloc (h : s.Every c) {p : Payload} (hp : ∀ v, p = .owned v → v.throughout c = true)
    (r : Role) : (s.alloc p r).1.Every c := by
  obtain ⟨-, -, ⟨hf, hs⟩ | ⟨-, -, -, hs⟩⟩ := alloc_cases (s := s) p r
  · exact h.of_set hs fun _ hx => by
      cases hx
      exact hp
  · intro j cell hj
    rw [cell?_of_push _ hs] at hj
    split at hj
    · cases hj
      exact hp
    · exact h j cell hj

theorem Every.unlink (h : s.Every c) (pos : Nat) : (s.unlink pos).Every c := by
  unfold CellStore.unlink
  dsimp only
  refine Every.setLink ?_ _ _
  split
  · exact h.release _
  · exact h.release _
  · exact h

section Moves

variable (h : s.Every c)

include h

/-- A fresh owned null linked to the position keeps every cell accepted. -/
theorem Every.fresh_null (hnull : Value.null.throughout c = true) (pos : Nat) :
    (match s.alloc (.owned .null) .result with
      | (s, id) => (s.setLink pos (.own id), id)).1.Every c := by
  have h₁ := h.alloc (p := .owned .null) (fun v hv => by cases hv; exact hnull) .result
  rcases hal : s.alloc (.owned .null) .result with ⟨s₁, id⟩
  rw [hal] at h₁
  exact h₁.setLink _ _

/-- A cell of its own for a result: the position's owned cell, one turned from an alias into an
owned null, or a fresh owned null. -/
theorem Every.writable (hnull : Value.null.throughout c = true) (pos : Nat) :
    (s.writable pos).1.Every c := by
  unfold CellStore.writable
  dsimp only
  split
  · split
    · split
      · exact h.modifyCell fun cell _ => Cell.accepts_owned rfl hnull
      · exact h
    · exact h.fresh_null hnull pos
  · exact (h.release _).fresh_null hnull pos
  · exact h.fresh_null hnull pos

omit h in
/-- The position's own literal cell, or a fresh cell owning the literal. -/
theorem Every.literal (h : s.Every c) (pos : Nat) {v : Value} (hv : v.throughout c = true) :
    (s.literal pos v).1.Every c := by
  unfold CellStore.literal
  dsimp only
  split
  · exact h
  · have h₁ := (h.unlink pos).alloc (p := .owned v) (fun w hw => by cases hw; exact hv) .leaf
    rcases hal : (s.unlink pos).alloc (.owned v) .leaf with ⟨s₁, id⟩
    rw [hal] at h₁
    exact h₁.setLink _ _

/-- An alias cell owns nothing. -/
theorem Every.bind (pos : Nat) (hd : Handle) (k : ValueKind) (r : Role) :
    (s.bind pos hd k r).1.Every c := by
  unfold CellStore.bind
  dsimp only
  split
  · exact h.modifyCell fun cell _ => Cell.accepts_alias rfl
  · have h₁ := (h.unlink pos).alloc (p := .alias hd) (fun w hw => by cases hw) r
    rcases hal : (s.unlink pos).alloc (.alias hd) r with ⟨s₁, id⟩
    rw [hal] at h₁
    -- recording the bound kind keeps the alias
    have h₂ : (s₁.modifyCell id fun cell => { cell with boundKind := k }).Every c :=
      h₁.modifyCell fun cell hcell => h₁ id cell hcell
    exact h₂.setLink _ _

theorem Every.share (pos target : Nat) : (s.share pos target).Every c := by
  unfold CellStore.share
  split
  · exact h
  · have h₁ : (s.modifyCell target fun cell => { cell with refs := cell.refs + 1 }).Every c :=
      h.modifyCell fun cell hcell => h target cell hcell
    exact (h₁.unlink pos).setLink _ _

/-- Lending moves an owned value out, leaving null. -/
theorem Every.lend (hnull : Value.null.throughout c = true) (id : Nat) :
    (s.lend id).1.Every c ∧ (s.lend id).2.throughout c = true := by
  unfold CellStore.lend
  split
  · rename_i v _ _ _ _ hcell
    exact ⟨h.modifyCell fun _ _ => Cell.accepts_owned rfl hnull, h id _ hcell v rfl⟩
  · exact ⟨h, hnull⟩

omit h in
theorem Every.restore (h : s.Every c) (id : Nat) {v : Value} (hv : v.throughout c = true) :
    (s.restore id v).Every c := by
  have h₁ : (s.modifyCell id fun cell => { cell with lastKind := v.kind, payload := .owned v }).Every c :=
    h.modifyCell fun _ _ => Cell.accepts_owned rfl hv
  unfold CellStore.restore
  split
  · exact h
  · dsimp only
    -- the counters are no cells
    split
    · exact h₁
    · split
      · exact h₁
      · exact h₁

theorem Every.takeOwned (hnull : Value.null.throughout c = true) (id : Nat) :
    (s.takeOwned id).1.Every c ∧ ∀ v, (s.takeOwned id).2 = some v → v.throughout c = true := by
  unfold CellStore.takeOwned
  split
  · rename_i cell hcell
    split
    · exact ⟨h, fun _ hv => by cases hv⟩
    · split
      · rename_i v hv
        refine ⟨h.modifyCell fun _ _ => Cell.accepts_owned rfl hnull, fun w hw => ?_⟩
        cases hw
        exact h id cell hcell _ hv
      · exact ⟨h, fun _ hv => by cases hv⟩
  · exact ⟨h, fun _ hv => by cases hv⟩

end Moves

theorem every_clear (s : CellStore) : s.clear.Every c := fun id cell h => by
  simp [clear, cell?] at h

theorem Every.validate (h : s.Every c) (st : Stamp) : (s.validate st).Every c := by
  unfold CellStore.validate
  split
  · split
    · exact h
    · exact every_clear s
  · exact h

end CellStore

namespace UserFunction

/-- The cells of every statement of a function copy satisfy `Every c`. -/
def Every (c : Value → Bool) (fn : UserFunction) : Prop :=
  (∀ r ∈ fn.body, r.cells.Every c) ∧ ∀ t r, fn.returns = some (t, r) → r.cells.Every c

/-- A fresh copy has no cells. -/
theorem every_copyWith (fn : UserFunction) (compiled : Bool) : (fn.copyWith compiled).Every c := by
  refine ⟨fun r hr => ?_, fun t r hr => ?_⟩
  · obtain ⟨r₀, -, rfl⟩ := List.mem_map.1 hr
    exact CellStore.every_empty
  · obtain ⟨⟨t₀, r₀⟩, -, hr⟩ := Option.map_eq_some_iff.1 hr
    cases hr
    exact CellStore.every_empty

end UserFunction

namespace FunctionTable

/-- Every compiled copy the table holds satisfies `Every c`. -/
def Every (c : Value → Bool) (t : FunctionTable) : Prop :=
  ∀ name e w, t.find? name = some e → e.warm = some w → w.Every c

variable {t t₁ : FunctionTable}

theorem every_empty : ({} : FunctionTable).Every c := fun name e w h => by
  simp [find?] at h

theorem Every.setWarm (h : t.Every c) {name : String} {w : Option UserFunction}
    (hw : ∀ f, w = some f → f.Every c) : (t.setWarm name w).Every c := by
  intro n e f he hf
  rw [find?_setWarm] at he
  obtain ⟨e₀, h₀, rfl⟩ := Option.map_eq_some_iff.mp he
  split at hf
  · exact hw f hf
  · exact h n e₀ f h₀ hf

/-- A checkout takes an accepted copy and leaves an accepted table. -/
theorem Every.checkout (h : t.Every c) {name : String} {fn : UserFunction}
    (hk : t.checkout name = some (t₁, fn)) : t₁.Every c ∧ fn.Every c := by
  obtain ⟨e, he, ⟨hw, rfl⟩ | ⟨-, rfl, rfl⟩⟩ := checkout_cases hk
  · exact ⟨h.setWarm fun _ hf => (by cases hf), h name e fn he hw⟩
  · exact ⟨h, UserFunction.every_copyWith _ _⟩

theorem Every.checkin (h : t.Every c) {fn : UserFunction} (hf : fn.Every c) : (t.checkin fn).Every c := by
  unfold FunctionTable.checkin
  split
  · exact h
  · split
    · split
      · exact h.setWarm fun f hf' => by
          cases hf'
          exact hf
      · exact h
    · exact h

end FunctionTable

/-- The variables and the compiled function copies of a workspace satisfy `Every c`. -/
structure Workspace.Every (c : Value → Bool) (ws : Workspace) : Prop where
  vars : ws.vars.Every c
  functions : ws.functions.Every c

/-- A workspace with no variables and no functions satisfies `Every c`. -/
theorem Workspace.every_of_dataset (d : Dataset) : ({ dataset := d } : Workspace).Every c :=
  ⟨VarTable.every_empty, FunctionTable.every_empty⟩

/-- The workspace and the cells of a machine satisfy `Every c`. -/
structure Machine.Every (c : Value → Bool) (m : Machine) : Prop where
  ws : m.ws.Every c
  cells : m.cells.Every c

/-- The storage a handle stands for holds an accepted value: a series, or a variable or a part
of one. -/
theorem Workspace.resolve_throughout (hc : Value.Invariant c) {ws : Workspace} (hv : ws.vars.Every c)
    {hd : Handle} {o : Operand} (h : ws.resolve hd = .ok o) : o.value.throughout c = true := by
  unfold Workspace.resolve at h
  split at h
  · split at h
    · cases h
      exact hc.series_throughout _
    · cases h
  · split at h
    · rename_i v hget
      cases h
      exact hv _ v hget
    · cases h
  · split at h
    · rename_i path _ v hget
      cases hp : path.foldlM Accessor.follow v with
      | error e => rw [hp] at h; cases h
      | ok w =>
        rw [hp] at h
        cases h
        exact Value.throughout_followPath path (hv _ v hget) hp
    · cases h

/-- Reading a cell gives an accepted operand. -/
theorem CellStore.Every.read (hc : Value.Invariant c) {s : CellStore} (hs : s.Every c) {ws : Workspace}
    (hv : ws.vars.Every c) {id : Nat} {o : Operand} (h : s.read ws id = .ok o) :
    o.value.throughout c = true := by
  unfold CellStore.read at h
  split at h
  · cases h
  · rename_i cell hcell
    split at h
    · rename_i v hp
      cases h
      exact hs id cell hcell v hp
    · obtain ⟨o', ho', h⟩ := Except.bind_eq_ok h
      split at h
      · cases h
      · cases h
        exact Workspace.resolve_throughout hc hv ho'

end SeriesCalc
