import SeriesCalc.Data.VarStore

/-!
# The variable table

The variables of a workspace, and the locals of a call: a variable store whose index agrees with
its slots (`VarStore.Agrees`). Each operation is the store's operation, with the agreement carried
over. A call that fails returns its error, and the caller keeps the table it had: on a store that
agrees, a failing operation leaves the store as it was.
-/

namespace SeriesCalc

/-- A variable store whose index agrees with its slots. -/
structure VarTable extends VarStore where
  agrees : toVarStore.Agrees := by exact VarStore.Agrees.empty

namespace VarTable

instance : Inhabited VarTable := ⟨{}⟩

@[simp] theorem lookup_empty (x : String) : ({} : VarTable).lookup x = none := rfl

/-- Replace the value in a slot, if the slot holds a variable. -/
def setSlot (vt : VarTable) (id : Nat) (v : Value) : VarTable :=
  ⟨vt.toVarStore.setSlot id v, vt.agrees.setSlot id v⟩

/-- Move a value out of its slot, leaving null behind. -/
def take (vt : VarTable) (id : Nat) : VarTable × Option Value := (vt.setSlot id .null, vt.get? id)

/-- A name no slot holds, in a new slot at the end. -/
def push (vt : VarTable) (x : String) (v : Value) (hx : vt.lookup x = none) : VarTable :=
  ⟨vt.toVarStore.push x v, vt.agrees.push hx v⟩

/-- Define or overwrite a variable. -/
def insert (vt : VarTable) (name : String) (v : Value) : Except DataError (VarTable × Nat) :=
  let r := vt.toVarStore.insert name v
  r.1.map fun id => (⟨r.2, vt.agrees.insert name v⟩, id)

/-- Remove a variable, returning its value. -/
def remove (vt : VarTable) (name : String) : Except DataError (VarTable × Value) :=
  let r := vt.toVarStore.remove name
  r.1.map fun v => (⟨r.2, vt.agrees.remove name⟩, v)

/-- Give a variable a new name. -/
def rename (vt : VarTable) (old new : String) : Except DataError VarTable :=
  let r := vt.toVarStore.rename old new
  r.1.map fun _ => ⟨r.2, vt.agrees.rename old new⟩

end VarTable

end SeriesCalc
