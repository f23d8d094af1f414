import SeriesCalc.Proofs.PointerArgs
import SeriesCalc.Proofs.Walk.Effects
import SeriesCalc.Eval.Run

/-!
# Later arguments see the variables lent before them

A call binds its arguments left to right. An argument `&x` at a by-reference parameter moves the
caller's variable `x` out of its slot, which holds null until the call hands the value back; a
by-value argument bound after it is evaluated against that table. So arguments do observe
lending: in `f(&p, p)` the second parameter receives null, not the value `p` had at the call.

* `VarTable.moveOut`, `VarTable.moveAll`: the caller's table after variables are moved out;
  `valueOf?_moveAll` reads it: a moved variable holds null, every other one its old value.
* `borrow_moves`: a borrow leaves the table moved out by the name behind `&x`.
* `ArgGives`: a value a by-value argument gives from a machine with a given table.
* **`value_args_see_lent_vars`**: when binding succeeds, every by-value parameter holds what its
  argument gives from the caller's table with the variables lent by the arguments before it
  moved out.
-/

namespace SeriesCalc

namespace VarTable

/-- The table after the variable `y` is moved into a by-reference parameter: its slot holds
null. A name that is no variable (a dataset series) moves nothing. -/
def moveOut (V : VarTable) (y : String) : VarTable :=
  match V.lookup y with
  | some vid => (V.take vid).1
  | none => V

/-- The table after the variables named `ys` are moved out, in order. -/
def moveAll (V : VarTable) (ys : List String) : VarTable := ys.foldl moveOut V

@[simp] theorem moveAll_nil (V : VarTable) : V.moveAll [] = V := rfl

theorem moveAll_append_single (V : VarTable) (ys : List String) (y : String) :
    V.moveAll (ys ++ [y]) = (V.moveAll ys).moveOut y := by
  simp only [moveAll, List.foldl_append, List.foldl_cons, List.foldl_nil]

/-- Moving a variable out reads it as null and leaves every other variable alone. -/
theorem valueOf?_moveOut (V : VarTable) (y x : String) :
    (V.moveOut y).valueOf? x = if x = y then (V.valueOf? x).map fun _ => .null else V.valueOf? x := by
  unfold moveOut
  cases hy : V.lookup y with
  | none =>
    dsimp only
    split
    · rename_i hxy
      subst hxy
      simp [valueOf?, hy]
    · rfl
  | some vid =>
    dsimp only [take]
    have hname := lookup_eq_some_iff.mp hy
    split
    · rename_i hxy
      subst hxy
      -- the slot of a variable holds a value, which the move replaces by null
      obtain ⟨w, hw⟩ : ∃ w, V.get? vid = some w :=
        Option.isSome_iff_exists.mp (by rw [isSome_get?, hname]; rfl)
      rw [valueOf?_setSlot_self _ _ hy, valueOf?, hy, Option.bind_some, hw]
      rfl
    · rename_i hxy
      exact valueOf?_setSlot_of_ne _ _ fun h => hxy (Option.some.inj (h.symm.trans hname))

/-- **The table after lending**: a variable named by a lent argument reads null, every other
variable reads the value it had. -/
theorem valueOf?_moveAll (ys : List String) (V : VarTable) (x : String) :
    (V.moveAll ys).valueOf? x = if x ∈ ys then (V.valueOf? x).map fun _ => .null else V.valueOf? x := by
  induction ys generalizing V with
  | nil => simp
  | cons y ys ih =>
    simp only [moveAll, List.foldl_cons] at ih ⊢
    rw [ih, valueOf?_moveOut]
    by_cases hxy : x = y
    · subst hxy
      simp [Option.map_map, Function.comp_def]
    · by_cases hx : x ∈ ys <;> simp [hxy, hx]

end VarTable

namespace Forest

theorem lentNames_append (f : Forest) (ps qs : List (Param × Nat)) :
    f.lentNames (ps ++ qs) = f.lentNames ps ++ f.lentNames qs := by
  simp only [lentNames, List.filterMap_append]

theorem lentNames_byValue (f : Forest) {p : Param} (node : Nat) (hp : p.byRef = false) :
    f.lentNames [(p, node)] = [] := by
  simp [lentNames, hp]

end Forest

namespace Walk

open EvalM VarTable

variable {fr : Frame}

/-- A borrow moves out the variable behind `&x`, or nothing when `x` names a dataset series. -/
theorem borrow_moves (p : Param) (node : Nat) (W : VarTable) :
    Triple fr (fun ws => ws.vars = W) (borrow p node) fun _ ws =>
      ∃ y, fr.forest.refName? node = some y ∧ ws.vars = W.moveOut y := by
  unfold borrow
  refine Triple.read_bind ?_
  split
  · rename_i target hnode
    split
    · rename_i v htarget
      have hname : fr.forest.refName? node = some (fr.forest.name v) := by
        simp [Forest.refName?, hnode, htarget]
      refine Triple.workspace_bind fun ws hws => ?_
      subst hws
      split
      · rename_i vid hvid
        refine Triple.modifyWorkspace_bind fun _ _ => Triple.pure _ fun ws' hws' => ?_
        subst hws'
        exact ⟨_, hname, by simp only [moveOut, hvid, take]⟩
      · rename_i hvid
        split
        · exact Triple.pure _ fun ws' hws' => ⟨_, hname, by rw [hws', moveOut, hvid]⟩
        · exact Triple.fail _
    · exact Triple.fail _
  · exact Triple.fail _

/-- `v` is what the by-value argument at `node` gives for the parameter `p`, evaluated and
converted from a machine whose caller's table is `W`. -/
def ArgGives (child : Nat → EvalM Nat) (fr : Frame) (p : Param) (node : Nat) (W : VarTable)
    (v : Value) : Prop :=
  ∃ m : Machine, m.ws.vars = W ∧
    ((do converted (← child node) p.declared : EvalM Value).exec fr m).1 = .ok v

/-- What a successful binding of `ps` after the arguments `done`, into `locals`, promises: the
locals keep what they held, and each by-value parameter holds what its argument gives from the
caller's table `V` with the variables lent before it moved out. -/
def BindsFromMoved (child : Nat → EvalM Nat) (fr : Frame) (V : VarTable)
    (done ps : List (Param × Nat)) (locals : VarTable)
    (res : VarTable × List (String × Lent) × Option EvalError) : Prop :=
  res.2.2 = none →
    (∀ x v, locals.valueOf? x = some v → res.1.valueOf? x = some v) ∧
    ∀ pre p node post, ps = pre ++ (p, node) :: post → p.byRef = false →
      ∃ v, res.1.valueOf? p.name = some v ∧
        ArgGives child fr p node (V.moveAll (fr.forest.lentNames (done ++ pre))) v

theorem bindsFromMoved_of_error {child : Nat → EvalM Nat} {V : VarTable}
    {done ps : List (Param × Nat)} {locals : VarTable}
    {res : VarTable × List (String × Lent) × Option EvalError} (e : EvalError)
    (he : res.2.2 = some e) : BindsFromMoved child fr V done ps locals res := fun h => by
  rw [he] at h
  cases h

/-- One argument bound to `value` from the table `W`, then the rest bound after it: the
promise for the rest gives the promise for the whole list. -/
theorem BindsFromMoved.cons {child : Nat → EvalM Nat} {V : VarTable} {done rest : List (Param × Nat)}
    {p : Param} {node : Nat} {locals : VarTable} {value : Value}
    {res : VarTable × List (String × Lent) × Option EvalError} (hnone : locals.lookup p.name = none)
    (hgives : p.byRef = false → ArgGives child fr p node (V.moveAll (fr.forest.lentNames done)) value)
    (h : BindsFromMoved child fr V (done ++ [(p, node)]) rest (locals.push p.name value hnone) res) :
    BindsFromMoved child fr V done ((p, node) :: rest) locals res := by
  intro hok
  obtain ⟨hkeep, hargs⟩ := h hok
  refine ⟨fun x v hx => hkeep x v ?_, fun pre q n post hps hq => ?_⟩
  · -- a name the locals held is not the fresh parameter's
    have hxp : x ≠ p.name := by
      rintro rfl
      rw [valueOf?, hnone] at hx
      cases hx
    rw [valueOf?_push_ne _ _ hxp]
    exact hx
  · rcases List.cons_eq_append_iff.mp hps with ⟨rfl, hhead⟩ | ⟨pre', rfl, hrest⟩
    · -- the argument just bound
      simp only [List.cons.injEq, Prod.mk.injEq] at hhead
      obtain ⟨⟨rfl, rfl⟩, -⟩ := hhead
      refine ⟨value, hkeep _ _ (valueOf?_push_self _ hnone), ?_⟩
      simpa using hgives hq
    · obtain ⟨v, hv, hg⟩ := hargs pre' q n post hrest hq
      exact ⟨v, hv, by simpa using hg⟩

/-- Binding, from any point of the argument list: see `BindsFromMoved`. -/
theorem bindArgs_bindsFromMoved {child : Nat → EvalM Nat}
    (hchild : ∀ c vs, Stays fr (fun ws => ws.vars = vs) (child c)) (V : VarTable) :
    ∀ (ps done : List (Param × Nat)) (locals : VarTable) (lent : List (String × Lent)),
      Triple fr (fun ws => ws.vars = V.moveAll (fr.forest.lentNames done))
        (bindArgs child ps locals lent) fun res _ => BindsFromMoved child fr V done ps locals res := by
  intro ps
  induction ps with
  | nil =>
    intro done locals lent
    rw [bindArgs]
    refine Triple.pure _ fun _ _ _ => ⟨fun _ _ h => h, fun pre p node post h => ?_⟩
    simp at h
  | cons e rest ih =>
    obtain ⟨p, node⟩ := e
    intro done locals lent
    rw [bindArgs]
    split
    · exact Triple.pure _ fun _ _ => bindsFromMoved_of_error _ rfl
    · rename_i hfresh
      have hnone : locals.lookup p.name = none := by simpa using hfresh
      extract_lets jp
      -- a bound argument: the rest is bound from the table with its name lent
      have next : ∀ value lent', (p.byRef = false →
          ArgGives child fr p node (V.moveAll (fr.forest.lentNames done)) value) →
          Triple fr (fun ws => ws.vars = V.moveAll (fr.forest.lentNames (done ++ [(p, node)])))
            (jp (.ok value, lent')) fun res _ =>
              BindsFromMoved child fr V done ((p, node) :: rest) locals res := by
        intro value lent' hgives
        dsimp only [jp]
        split
        · exact Triple.pure _ fun _ _ => bindsFromMoved_of_error _ rfl
        · rename_i locals' _ hins
          obtain rfl := insert_fresh_eq_ok hnone hins
          exact (ih _ _ _).conseq fun res _ h => BindsFromMoved.cons hnone hgives h
      split
      · -- by reference: the borrow moves the name behind `&x` out
        rename_i href
        have hborrow := attempt_triple (E := fun _ => True)
          (@borrow_moves fr p node (V.moveAll (fr.forest.lentNames done))) fun _ _ _ _ => trivial
        refine Triple.bind hborrow fun r => ?_
        split
        · rename_i borrowed
          obtain ⟨value, source⟩ := borrowed
          simp only [pure_bind]
          refine Triple.of_forall fun ws₁ hmoved => ?_
          obtain ⟨y, hy, hws₁⟩ := hmoved
          refine (next value _ fun hv => absurd href (by simp [hv])).weaken fun ws h => ?_
          have hlent : fr.forest.lentNames [(p, node)] = [y] := by
            simp [Forest.lentNames, href, hy]
          rw [h, hws₁, Forest.lentNames_append, hlent, moveAll_append_single]
        · simp only [pure_bind]
          dsimp only [jp]
          exact Triple.pure _ fun _ _ => bindsFromMoved_of_error _ rfl
      · -- by value: evaluated and converted against the table as binding left it
        rename_i href
        have hval : p.byRef = false := by simpa using href
        refine Triple.of_forall fun ws₀ hws₀ => ?_
        have hstays : Stays fr (fun ws => ws.vars = ws₀.vars)
            (do let id ← child node; converted id p.declared) :=
          (hchild node _).bind fun _ => converted_stays _ _
        have harg : Triple fr (fun ws => ws.vars = ws₀.vars)
            (do let id ← child node; converted id p.declared) fun v ws =>
              ws.vars = ws₀.vars ∧ ArgGives child fr p node ws₀.vars v :=
          fun m hm v hv => ⟨hstays m hm, m, hm, hv⟩
        refine Triple.bind ((attempt_triple harg (E := fun _ => True) fun _ _ _ _ => trivial).weaken
          fun ws h => h ▸ rfl) fun r => ?_
        simp only [pure_bind]
        cases r with
        | ok v =>
          refine Triple.of_forall fun ws₁ hpost => ?_
          obtain ⟨hws₁, hgives⟩ := hpost
          refine (next v lent fun _ => hws₀ ▸ hgives).weaken fun ws h => ?_
          rw [h, hws₁, hws₀, Forest.lentNames_append, Forest.lentNames_byValue _ _ hval,
            List.append_nil]
        | error e =>
          dsimp only [jp]
          exact Triple.pure _ fun _ _ => bindsFromMoved_of_error _ rfl

/-- **Arguments see the variables lent before them.** Binding the arguments `ps` of a call,
from the caller's table `V` and with argument evaluation that leaves the caller's variables
alone: when binding succeeds, the parameter of every by-value argument holds what that argument
gives, evaluated and converted, from the table `V` in which each variable named by an earlier
`&x` argument has been moved out (it reads null, `valueOf?_moveAll`) and every other variable is
as it was at the call. -/
theorem value_args_see_lent_vars {child : Nat → EvalM Nat}
    (hchild : ∀ c vs, Stays fr (fun ws => ws.vars = vs) (child c)) (V : VarTable)
    (ps : List (Param × Nat)) :
    Triple fr (fun ws => ws.vars = V) (bindArgs child ps {} []) fun res _ => res.2.2 = none →
      ∀ pre p node post, ps = pre ++ (p, node) :: post → p.byRef = false →
        ∃ v, res.1.valueOf? p.name = some v ∧
          ArgGives child fr p node (V.moveAll (fr.forest.lentNames pre)) v :=
  ((bindArgs_bindsFromMoved hchild V ps [] {} []).weaken fun _ h => h).conseq
    fun _ _ h hok => by simpa using (h hok).2

/-- `f(&a, b)` bound to `&p` (node 1) and `p` (node 0) in the frame over `&p`. -/
def lendArgs : List (Param × Nat) := [({ name := "a", byRef := true }, 1), ({ name := "b" }, 0)]

theorem refFrame_noUserCall (ws : Workspace) (root : Nat) : refFrame.forest.NoUserCall ws root := by
  intro pos _ fn args h
  rcases pos with _ | _ | pos <;> simp [refFrame, Forest.node?] at h

theorem lendArgs_bind_from_moved :
    Triple refFrame (fun ws => ws.vars = callerMachine.ws.vars) (bindArgs evalNode lendArgs {} [])
      fun res _ => res.2.2 = none →
        ∀ pre p node post, lendArgs = pre ++ (p, node) :: post → p.byRef = false →
          ∃ v, res.1.valueOf? p.name = some v ∧
            ArgGives evalNode refFrame p node
              (callerMachine.ws.vars.moveAll (refFrame.forest.lentNames pre)) v :=
  value_args_see_lent_vars
    (fun c _ => evalNode_stays (fun _ _ h => h) c fun ws _ => refFrame_noUserCall ws c) _ _

/-- `f(&a, b)` returning `b`. -/
def lendTwice : UserFunction :=
  { name := "f"
    params := [{ name := "a", byRef := true }, { name := "b" }]
    returns := some (.any, { stmt := { forest := { nodes := #[.ident 0], names := #["b"] }, rhs := some 0 } }) }

/-- A caller with `p = 5` and `f` defined. -/
def lendCallWs : Workspace :=
  { dataset := Dataset.create 0
    vars := ({} : VarTable).push "p" (.scalar 5) (VarTable.lookup_empty "p")
    functions := ({} : FunctionTable).define lendTwice }

/-- The statement `f(&p, p)`. -/
def lendCall : Runnable :=
  { stmt := { forest := { nodes := #[.ident 1, .ref 0, .ident 1, .call 0 ⟨0, 2⟩]
                          children := #[1, 2]
                          names := #["f", "p"] }
              rhs := some 3 } }

/-- `f(&p, p)` with `p = 5` hands `f` a null second argument: `p` was moved into `a` before `p`
was evaluated for `b`. -/
theorem lent_variable_reads_null_in_later_argument :
    (lendCallWs.vars.valueOf? "p").map Value.isNull = some false ∧
      (lendCall.evaluate lendCallWs).2.2.toOption.map Value.isNull = some true := by
  decide +kernel

end Walk

end SeriesCalc
