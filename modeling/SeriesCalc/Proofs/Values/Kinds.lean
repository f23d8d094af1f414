import SeriesCalc.Proofs.Values.Writes

/-!
# An existing variable keeps its kind

A whole assignment `x op= rhs` to a variable whose value has a declared type (`DeclaredType.of`:
every value but null and an array with no element kind) stores a value of the same kind, or fails
without touching the variables:

* a declared type other than the variable's own is refused before anything is computed
  (`Assign.whole_var_exec`);
* plain `=` stores the right-hand side brought to the variable's type (`conform`, which converts
  a scalar and a `1 × 1` matrix, a series and a column, a dataset series and a list), and `= null`
  the type's empty value; `.=` fills a matrix; every other operator combines the old value with
  the right-hand side and converts the result back (`Assign.update_kind`);
* a failed assignment changes no variable (`Assign.write_failsKept`).

**`Assign.whole_assign_keeps_kind`** puts these together. An array with no element kind has no
declared type, so nothing is enforced for it: `a = 5` turns it into a scalar
(`Assign.untyped_array_becomes_scalar`).
-/

namespace SeriesCalc

/-- Derived equality tests of kinds decide equality. -/
theorem ValueKind.eq_of_beq {a b : ValueKind} (h : (a == b) = true) : a = b := by
  revert h
  cases a <;> cases b <;> decide

namespace DeclaredType

/-- The derived equality test of declared types decides equality. -/
theorem beq_iff_eq {a b : DeclaredType} : (a == b) = true ↔ a = b := by
  refine ⟨DeclaredType.eq_of_beq, fun h => ?_⟩
  subst h
  cases a with
  | array k => cases k <;> rfl
  | _ => rfl

/-- The empty value of a declared type has that type. -/
theorem of_empty? {t : DeclaredType} {v : Value} (h : t.empty? = some v) : DeclaredType.of v = t := by
  cases t <;> simp only [empty?, Option.some.injEq, reduceCtorEq] at h <;> subst h <;> rfl

/-- A value that a declared type other than `any` admits has the kind the type asks for. -/
theorem valueKind?_of_admits {t : DeclaredType} {v : Value} (ht : t ≠ .any) (h : t.admits v = true) :
    t.valueKind? = some v.kind := by
  cases t with
  | any => exact absurd rfl ht
  | array k =>
    cases v with
    | array j items => rfl
    | _ => cases h
  | _ => exact congrArg some (ValueKind.eq_of_beq h)

end DeclaredType

/-- Bringing a value to a declared type other than `any` gives a value of the kind the type asks
for. -/
theorem conform_kind {ds : Dataset} {src o : Operand} {t : DeclaredType} (ht : t ≠ .any)
    (h : conform ds src t = .ok o) : t.valueKind? = some o.value.kind := by
  unfold conform at h
  split at h
  · cases h
    exact DeclaredType.valueKind?_of_admits ht ‹_›
  · cases hv : convert ds src t with
    | error e => rw [hv] at h; cases h
    | ok v =>
      rw [hv] at h
      cases h
      have hof := of_convert hv ht
      rw [← hof]
      exact DeclaredType.valueKind?_of (hof ▸ ht)

namespace WriteM

/-- An operator run from an empty cell gives what it leaves in the cell. -/
theorem operate_leaves {target : DeclaredType} {op : OpEnv → OpM Unit} {P : Value → Prop}
    (hl : ∀ env, Scratch.Leaves P (op env)) {ws : Workspace} {v : Value}
    (h : ((operate target op).exec ws).1 = .ok v) : P v := by
  simp only [WriteM.operate, exec_bind, exec_get] at h
  split at h
  rename_i r s hrun
  have hexec : Scratch.exec (op { ds := ws.dataset, target }) ⟨.null, ws.warnings⟩ = (r, s) := hrun
  cases r with
  | ok u =>
    cases h
    have hp := hl { ds := ws.dataset, target } ⟨.null, ws.warnings⟩ u (by rw [hexec])
    rwa [hexec] at hp
  | error e => cases h

end WriteM

namespace Assign

open WriteM

/-- `.=` gives a matrix, and only to a matrix. -/
theorem fill_kind {slot v : Value} {rhs : Operand} (h : fill slot rhs = .ok v) : v.kind = slot.kind := by
  unfold fill at h
  split at h
  · split at h
    · cases h
      rfl
    · cases h
  · cases h

/-- An inflected update gives a value of the old value's kind: the operator's own result when it
has the old value's type, or when the old value has none; else that result converted back. -/
theorem combine_kind {existing v : Value} {op : AssignOp} {rhs : Operand} {target : DeclaredType}
    {ws : Workspace} (h : ((combine existing op rhs target).exec ws).1 = .ok v) :
    v.kind = existing.kind := by
  unfold Assign.combine at h
  extract_lets want rest at h
  -- the operator is found or refused, then run from an empty cell
  have hrest : ∀ bop, ((rest bop).exec ws).1 = .ok v → v.kind = existing.kind := by
    intro bop hr
    dsimp only [rest] at hr
    rw [exec_bind] at hr
    cases hout : ((operate target fun env => Binary.apply env bop { value := existing } rhs).exec ws).1 with
    | error e => rw [hout] at hr; cases hr
    | ok out =>
      rw [hout] at hr
      dsimp only at hr
      split at hr
      · -- the result is kept: it has the old value's type, or the old value has none
        rename_i hpick
        rw [exec_pure] at hr
        cases hr
        by_cases hany : DeclaredType.of existing = .any
        · exact operate_leaves (fun env => Binary.apply_untyped env bop hany) hout
        · have hnot : want.isAny = false := by
            cases h : want.isAny
            · rfl
            · exact absurd (DeclaredType.isAny_eq_true.1 h) hany
          rw [hnot, Bool.false_or] at hpick
          exact DeclaredType.kind_eq_of_of (DeclaredType.eq_of_beq hpick) hany
      · -- the result is converted back to the old value's type
        rename_i hpick
        have hany : DeclaredType.of existing ≠ .any := fun h =>
          hpick (by rw [show want.isAny = true from DeclaredType.isAny_eq_true.2 h, Bool.true_or])
        rw [exec_bind, exec_dataset] at hr
        dsimp only at hr
        rw [exec_lift] at hr
        exact DeclaredType.kind_eq_of_of (of_convert hr hany) hany
  split at h
  · rw [exec_bind, exec_pure] at h
    exact hrest _ h
  · rw [exec_bind, exec_fail] at h
    cases h

/-- Plain `=` of a value that is not null stores it brought to the wanted type. -/
theorem update_assign_exec (slot : Value) {rhs : Operand} (want : DeclaredType) (ws : Workspace)
    (hrhs : rhs.value.isNull = false) :
    (update slot .assign rhs want).exec ws = ((conform ws.dataset rhs want).map (·.value), ws) := by
  simp only [update, hrhs, Bool.false_eq_true, ↓reduceIte, exec_bind, exec_dataset]
  cases conform ws.dataset rhs want <;> rfl

/-- `= null` stores the empty value of the wanted type. -/
theorem update_null_eq_ok {slot v : Value} {rhs : Operand} {want : DeclaredType} {ws : Workspace}
    (hnull : rhs.value.isNull = true) (h : ((update slot .assign rhs want).exec ws).1 = .ok v) :
    want.empty? = some v := by
  simp only [update, hnull, ↓reduceIte] at h
  split at h
  · rename_i e he
    rw [exec_pure] at h
    cases h
    exact he
  · rw [exec_fail] at h
    cases h

/-- Updating a value of a declared type under any operator gives a value of its kind. -/
theorem update_kind {slot v : Value} {op : AssignOp} {rhs : Operand} {ws : Workspace}
    (hslot : DeclaredType.of slot ≠ .any)
    (h : ((update slot op rhs (DeclaredType.of slot)).exec ws).1 = .ok v) : v.kind = slot.kind := by
  cases op with
  | assign =>
    cases hnull : rhs.value.isNull with
    | true =>
      -- `= null` stores the type's empty value
      exact DeclaredType.kind_eq_of_of (DeclaredType.of_empty? (update_null_eq_ok hnull h)) hslot
    | false =>
      rw [update_assign_exec _ _ _ hnull] at h
      cases hc : conform ws.dataset rhs (DeclaredType.of slot) with
      | error e => rw [hc] at h; cases h
      | ok o =>
        rw [hc] at h
        cases h
        have hk := conform_kind hslot hc
        rw [DeclaredType.valueKind?_of hslot] at hk
        exact (Option.some.inj hk).symm
  | fill =>
    rw [update, exec_lift] at h
    exact fill_kind h
  | _ => exact combine_kind h

/-- A whole assignment to a variable holding a value of a declared type: a declared type other
than the variable's is refused before anything is computed; otherwise the new value is computed
from the old one (`update`) and stored in the variable's slot. -/
theorem whole_var_exec {place : Place} {vid : Nat} {slot : Value} (op : AssignOp) (rhs : Operand)
    (target : DeclaredType) (ws : Workspace) (hroot : place.root = .var vid)
    (hslot : ws.vars.get? vid = some slot) (htyped : DeclaredType.of slot ≠ .any) :
    (whole place op rhs target).exec ws =
      if target ≠ .any ∧ target ≠ DeclaredType.of slot then
        (.error (Fault.invalidAssignment (place.text ++ " is a " ++ (DeclaredType.of slot).name ++
          ", not a " ++ target.name) : EvalError), ws)
      else match (update slot op rhs (DeclaredType.of slot)).exec ws with
        | (.ok v, ws') => (.ok (), { ws' with vars := ws'.vars.setSlot vid v })
        | (.error e, ws') => (.error e, ws') := by
  have hnot : (DeclaredType.of slot).isAny = false := by
    cases h : (DeclaredType.of slot).isAny
    · rfl
    · exact absurd (DeclaredType.isAny_eq_true.1 h) htyped
  -- the program's test of the declared type, read as a proposition
  have hcheck : (!target.isAny && target != DeclaredType.of slot) = true ↔
      target ≠ .any ∧ target ≠ DeclaredType.of slot := by
    rw [Bool.and_eq_true, bne, Bool.not_eq_true', Bool.not_eq_true', ← Bool.not_eq_true,
      ← Bool.not_eq_true, DeclaredType.isAny_eq_true, DeclaredType.beq_iff_eq]
  unfold whole
  simp only [hroot, exec_bind, exec_get, hslot, hnot, Bool.not_false, Bool.and_true,
    Bool.false_eq_true, ↓reduceIte]
  by_cases hmis : target ≠ .any ∧ target ≠ DeclaredType.of slot
  · rw [if_pos (hcheck.2 hmis), if_pos hmis, exec_bind, exec_fail]
  · rw [if_neg (mt hcheck.1 hmis), if_neg hmis, exec_bind]
    cases (update slot op rhs (DeclaredType.of slot)).exec ws with
    | mk r ws' => cases r <;> rfl

/-- **An existing variable keeps its kind.** Let a whole assignment `x op= rhs`, under any
operator, right-hand side and declared type, target a variable `x` whose value has a declared type
(every value but null and an array with no element kind). If it succeeds, it stores in `x`'s slot a
value of the kind `x` had, and nothing else changes among the variables; under plain `=` of a value
that is not null, that value is the right-hand side brought to `x`'s type (`conform`), and under
`= null` it is the empty value of `x`'s type. A declared
type other than `x`'s is refused, with the workspace as it was. An assignment that fails changes no
variable. -/
theorem whole_assign_keeps_kind {place : Place} {vid : Nat} {slot : Value}
    (op : AssignOp) (rhs : Operand) (target : DeclaredType) (ws : Workspace)
    (hroot : place.root = .var vid) (hsteps : place.steps = [])
    (hslot : ws.vars.get? vid = some slot) (htyped : DeclaredType.of slot ≠ .any) :
    let r := (write place op rhs target).exec ws
    (r.1 = .ok () → ∃ v, r.2.vars = ws.vars.setSlot vid v ∧ v.kind = slot.kind ∧
      (op = .assign → rhs.value.isNull = false →
        ∃ o, conform ws.dataset rhs (DeclaredType.of slot) = .ok o ∧ v = o.value) ∧
      (op = .assign → rhs.value.isNull = true → (DeclaredType.of slot).empty? = some v)) ∧
    (target ≠ .any → target ≠ DeclaredType.of slot →
      r = (.error (Fault.invalidAssignment (place.text ++ " is a " ++ (DeclaredType.of slot).name ++
        ", not a " ++ target.name) : EvalError), ws)) ∧
    (∀ e, r.1 = .error e → r.2.vars = ws.vars) := by
  have hwhole : write place op rhs target = whole place op rhs target := by
    simp [write, hsteps]
  intro r
  refine ⟨fun hok => ?_, fun hany hne => ?_, fun e he => (write_failsKept place op rhs target ws e he).1⟩
  · have hexec := whole_var_exec op rhs target ws hroot hslot htyped
    simp only [r, hwhole, hexec] at hok ⊢
    split at hok
    · cases hok
    · rename_i hmis
      rw [if_neg hmis]
      -- the new value is computed without touching the variables, then stored
      have hkept := (Keeps.closed.update slot op rhs (DeclaredType.of slot) ws).1
      cases hu : (update slot op rhs (DeclaredType.of slot)).exec ws with
      | mk res ws' =>
        rw [hu] at hok hkept
        cases res with
        | error e => cases hok
        | ok v =>
          refine ⟨v, by dsimp only at hkept ⊢; rw [hkept], update_kind htyped (by rw [hu]),
            fun hop hnull => ?_, fun hop hnull => ?_⟩
          · subst hop
            rw [update_assign_exec _ _ _ hnull] at hu
            cases hc : conform ws.dataset rhs (DeclaredType.of slot) with
            | error e => rw [hc] at hu; cases hu
            | ok o =>
              rw [hc] at hu
              cases hu
              exact ⟨o, rfl, rfl⟩
          · -- `= null` stores the type's empty value
            subst hop
            exact update_null_eq_ok hnull (by rw [hu])
  · simp only [r, hwhole, whole_var_exec op rhs target ws hroot hslot htyped, if_pos (And.intro hany hne)]

/-- A workspace whose one variable `k` is the scalar 1. -/
def scalarVarWs : Workspace :=
  { dataset := Dataset.create 0
    vars := ({} : VarTable).push "k" (.scalar 1) (VarTable.lookup_empty "k") }

/-- The place `k`. -/
def scalarVarPlace : Place := { root := .var 0, steps := [], text := "k" }

theorem scalar_var_keeps_kind :
    let r := (write scalarVarPlace .assign { value := .matrix (Matrix.ofScalar 5) } .matrix).exec
      scalarVarWs
    scalarVarWs.vars.get? 0 = some (.scalar 1) ∧ DeclaredType.of (.scalar 1) ≠ .any ∧
    (r.1 = .ok () → ∃ v, r.2.vars = scalarVarWs.vars.setSlot 0 v ∧ v.kind = (Value.scalar 1).kind ∧
      (AssignOp.assign = .assign → (Value.matrix (Matrix.ofScalar 5)).isNull = false →
        ∃ o, conform scalarVarWs.dataset { value := .matrix (Matrix.ofScalar 5) }
          (DeclaredType.of (.scalar 1)) = .ok o ∧ v = o.value) ∧
      (AssignOp.assign = .assign → (Value.matrix (Matrix.ofScalar 5)).isNull = true →
        (DeclaredType.of (.scalar 1)).empty? = some v)) ∧
    (DeclaredType.matrix ≠ .any → DeclaredType.matrix ≠ DeclaredType.of (.scalar 1) →
      r = (.error (Fault.invalidAssignment (scalarVarPlace.text ++ " is a " ++
        (DeclaredType.of (.scalar 1)).name ++ ", not a " ++ DeclaredType.matrix.name) : EvalError),
        scalarVarWs)) ∧
    (∀ e, r.1 = .error e → r.2.vars = scalarVarWs.vars) :=
  ⟨rfl, by decide, whole_assign_keeps_kind .assign _ .matrix scalarVarWs rfl rfl
    (rfl : scalarVarWs.vars.get? 0 = some (.scalar 1)) (by decide)⟩

/-- A workspace whose one variable `a` is an array with no element kind. -/
def untypedArrayWs : Workspace :=
  { dataset := Dataset.create 0
    vars := ({} : VarTable).push "a" (.array none []) (VarTable.lookup_empty "a") }

/-- An array with no element kind has no declared type: `a = 5` makes it a scalar. -/
theorem untyped_array_becomes_scalar :
    let r := (write { root := .var 0, steps := [], text := "a" } .assign { value := .scalar 5 } .any).exec
      untypedArrayWs
    untypedArrayWs.vars.get? 0 = some (.array none []) ∧ r.1 = .ok () ∧
      ∃ v, r.2.vars.get? 0 = some v ∧ v.kind = .scalar :=
  ⟨rfl, rfl, _, rfl, rfl⟩

end Assign

end SeriesCalc
