import SeriesCalc.Eval.Walk
import SeriesCalc.Proofs.Exec
import SeriesCalc.Proofs.Vars

/-!
# Pointer arguments are handed back

A call of a user function binds its arguments in order: an argument `&x` at a by-reference
parameter moves the caller's variable `x` out of its slot (`borrow`), any other argument is
evaluated and converted. The body runs against the locals, and then every lent slot gets the
value of its parameter back (`giveBack`); a parameter that is gone at that point takes the
caller's variable with it.

* `Binding`: what binding the first arguments leaves in the caller's table: the same names, the
  same values outside the lent slots, and each lent slot the slot of a name behind `&x`.
* `Bound`: each lent variable's value sits in the locals under its parameter's name.
* `bindArgs_triple`: binding keeps both, whatever the argument evaluation returns.
* `giveBack_spec`: handing back touches only lent slots, and when every lent value is still
  bound it restores each of them.
* `invoke_triple`: what a returning call leaves in the caller's table (`HandedBack`).
* **`invoke_hands_back`**: a call keeps the value of every caller variable it does not lend;
  when the by-reference parameters have valid names, each variable is lent once and the body
  keeps the by-reference parameters, it keeps the value of every caller variable.
-/

namespace SeriesCalc

namespace Forest

/-- The name of the variable behind `&x` at a node. -/
def refName? (f : Forest) (node : Nat) : Option String :=
  match f.node? node with
  | some (.ref target) =>
    match f.node? target with
    | some (.ident v) => some (f.name v)
    | _ => none
  | _ => none

/-- The names a call lends: those behind `&x` at its by-reference parameters. -/
def lentNames (f : Forest) (ps : List (Param × Nat)) : List String :=
  ps.filterMap fun (p, node) => if p.byRef then f.refName? node else none

theorem lentNames_cons (f : Forest) (p : Param) (node : Nat) (ps : List (Param × Nat)) :
    f.lentNames ((p, node) :: ps) =
      (if p.byRef then f.refName? node else none).toList ++ f.lentNames ps := by
  cases h : (if p.byRef then f.refName? node else none) <;> simp [lentNames, h]

end Forest

/-- The body keeps every by-reference parameter with the value it was bound to. -/
def Frame.KeepsRefParams (fr : Frame) (fn : UserFunction) : Prop :=
  ∀ ws, ∀ p ∈ fn.params, p.byRef → (fr.invoke ws fn).1.vars.valueOf? p.name = ws.vars.valueOf? p.name

namespace Walk

open EvalM VarTable

/-- The caller's slots a call has lent. -/
def lentSlots (lent : List (String × Lent)) : List Nat :=
  lent.filterMap fun e => match e.2 with
    | .var vid => some vid
    | .series _ => none

theorem mem_lentSlots {lent : List (String × Lent)} {vid : Nat} :
    vid ∈ lentSlots lent ↔ ∃ p, (p, Lent.var vid) ∈ lent := by
  unfold lentSlots
  rw [List.mem_filterMap]
  constructor
  · rintro ⟨⟨p, src⟩, hmem, hsrc⟩
    cases src with
    | var v =>
      cases hsrc
      exact ⟨p, hmem⟩
    | series _ => cases hsrc
  · rintro ⟨p, hmem⟩
    exact ⟨(p, .var vid), hmem, rfl⟩

variable {fr : Frame}

/-! ## Borrowing -/

/-- A borrow moves the caller's variable out of its slot, or copies a dataset series. -/
theorem borrow_triple (p : Param) (node : Nat) (W : VarTable) :
    Triple fr (fun ws => ws.vars = W) (borrow p node) fun (value, src) ws =>
      match src with
      | .var vid => ∃ y, fr.forest.refName? node = some y ∧ W.lookup y = some vid ∧
          ws.vars = W.setSlot vid .null ∧ value = (W.get? vid).getD .null
      | .series _ => ws.vars = W := by
  unfold borrow
  refine Triple.read_bind ?_
  split
  · rename_i target hnode
    split
    · rename_i v htarget
      have hname : fr.forest.refName? node = some (fr.forest.name v) := by
        simp [Forest.refName?, hnode, htarget]
      refine Triple.workspace_bind fun ws hws => ?_
      split
      · rename_i vid hvid
        refine Triple.modifyWorkspace_bind fun _ _ => Triple.pure _ fun ws' hws' => ?_
        subst hws'
        rw [← hws]
        exact ⟨_, hname, hvid, rfl, rfl⟩
      · split
        · exact Triple.pure _ fun ws' hws' => hws' ▸ hws
        · exact Triple.fail _
    · exact Triple.fail _
  · exact Triple.fail _

/-- A borrow that fails leaves the caller's table alone. -/
theorem borrow_failsIn (p : Param) (node : Nat) (W : VarTable) :
    FailsIn fr (fun ws => ws.vars = W) (fun ws => ws.vars = W) (borrow p node) := by
  unfold borrow
  refine FailsIn.bind Stays.read (fun _ h => h) fun _ => ?_
  split
  · split
    · refine FailsIn.bind Stays.workspace (fun _ h => h) fun _ => ?_
      split
      · -- the variable is moved out only on the way to returning
        intro m e _ he
        cases he
      · split
        · exact FailsIn.of_stays (Stays.pure _) fun _ h => h
        · exact FailsIn.of_stays (Stays.fail _) fun _ h => h
    · exact FailsIn.of_stays (Stays.fail _) fun _ h => h
  · exact FailsIn.of_stays (Stays.fail _) fun _ h => h

/-- An attempt returns the step's value or, unless it aborts, its error. -/
theorem attempt_triple {α : Type} {x : EvalM α} {P : Workspace → Prop} {Q : α → Workspace → Prop}
    {E : Workspace → Prop} (hx : Triple fr P x Q) (hfail : FailsIn fr P E x) :
    Triple fr P (attempt x) fun r ws => match r with
      | .ok a => Q a ws
      | .error _ => E ws := by
  intro m hm r hr
  have hmap : ((Except.ok <$> x : EvalM (Except EvalError α)).exec fr m) =
      match (x.exec fr m).1 with
      | .ok a => (.ok (.ok a), (x.exec fr m).2)
      | .error e => (.error e, (x.exec fr m).2) := by
    rw [map_eq_pure_bind, exec_bind]
    cases (x.exec fr m).1 <;> rfl
  unfold attempt at hr ⊢
  rw [exec_tryCatch, hmap] at hr ⊢
  have hok := hx m hm
  have herr := hfail m
  generalize x.exec fr m = p at hr hok herr ⊢
  obtain ⟨res, m'⟩ := p
  cases res with
  | ok a =>
    cases hr
    exact hok a rfl
  | error e =>
    dsimp only at hr ⊢
    split at hr
    · cases hr
    · rename_i habort
      rw [if_neg habort]
      cases hr
      exact herr e hm rfl

/-! ## Binding the arguments -/

theorem lentSlots_append_var (lent : List (String × Lent)) (q : String) (vid : Nat) :
    lentSlots (lent ++ [(q, .var vid)]) = lentSlots lent ++ [vid] := by
  simp [lentSlots, List.filterMap_append]

theorem lentSlots_append_series (lent : List (String × Lent)) (q : String) (sid : Nat) :
    lentSlots (lent ++ [(q, .series sid)]) = lentSlots lent := by
  simp [lentSlots, List.filterMap_append]

/-- What binding the first arguments of a call of `fn` leaves in the caller's table `W`, which
was `V`: the same names, the same values outside the lent slots, each lent slot the slot of a
name of `pre`, and each lent name a by-reference parameter of `fn`. -/
structure Binding (fn : UserFunction) (V : VarTable) (pre : List String)
    (lent : List (String × Lent)) (W : VarTable) : Prop where
  names : ∀ j, W.nameOf? j = V.nameOf? j
  same : V.SameOutside W (lentSlots lent)
  slots : ∀ p vid, (p, Lent.var vid) ∈ lent → ∃ y ∈ pre, V.lookup y = some vid
  params : ∀ p src, (p, src) ∈ lent → ∃ q ∈ fn.params, q.byRef = true ∧ q.name = p

/-- The locals hold each lent variable's value under its parameter's name, and the lent names
are distinct names of the locals. -/
structure Bound (V locals : VarTable) (lent : List (String × Lent)) : Prop where
  values : ∀ p vid, (p, Lent.var vid) ∈ lent → locals.valueOf? p = V.get? vid
  present : ∀ p src, (p, src) ∈ lent → (locals.lookup p).isSome
  distinct : (lent.map Prod.fst).Nodup

namespace Binding

variable {fn : UserFunction} {V W : VarTable} {pre : List String} {lent : List (String × Lent)}

theorem start (fn : UserFunction) (V : VarTable) : Binding fn V [] [] V :=
  ⟨fun _ => rfl, .refl V _, fun _ _ h => absurd h List.not_mem_nil,
    fun _ _ h => absurd h List.not_mem_nil⟩

theorem mono {pre' : List String} (h : Binding fn V pre lent W) (hpre : ∀ y ∈ pre, y ∈ pre') :
    Binding fn V pre' lent W := by
  refine ⟨h.names, h.same, fun p vid hp => ?_, h.params⟩
  obtain ⟨y, hy, hvid⟩ := h.slots p vid hp
  exact ⟨y, hpre y hy, hvid⟩

/-- A slot found for a name that no earlier argument lent is not lent yet. -/
theorem not_lent {y : String} {vid : Nat} (h : Binding fn V pre lent W) (hy : y ∉ pre)
    (hvid : V.lookup y = some vid) : vid ∉ lentSlots lent := by
  rw [mem_lentSlots]
  rintro ⟨p, hp⟩
  obtain ⟨y', hy', hvid'⟩ := h.slots p vid hp
  have hname := lookup_eq_some_iff.mp hvid
  rw [lookup_eq_some_iff.mp hvid'] at hname
  cases hname
  exact hy hy'

/-- The name a lent slot has in `V` is one of `pre`. -/
theorem mem_pre {j : Nat} {x : String} (h : Binding fn V pre lent W) (hj : j ∈ lentSlots lent)
    (hx : V.nameOf? j = some x) : x ∈ pre := by
  obtain ⟨p, hp⟩ := mem_lentSlots.mp hj
  obtain ⟨y, hy, hvid⟩ := h.slots p j hp
  rw [lookup_eq_some_iff.mp hvid] at hx
  cases hx
  exact hy

/-- The caller's table looks names up as it did before the call. -/
theorem lookup_eq (h : Binding fn V pre lent W) (y : String) : W.lookup y = V.lookup y :=
  (lookup_congr fun j => by rw [h.names j]).symm

/-- A slot found for a name that no earlier argument lent still holds the variable's value. -/
theorem lent_value {y : String} {vid : Nat} (h : Binding fn V pre lent W) (hy : y ∉ pre)
    (hvid : W.lookup y = some vid) : V.get? vid = some ((W.get? vid).getD .null) := by
  have hvidV : V.lookup y = some vid := (h.lookup_eq y) ▸ hvid
  have hget : W.get? vid = V.get? vid := (h.same.1 vid (h.not_lent hy hvidV)).2
  obtain ⟨w, hw⟩ : ∃ w, V.get? vid = some w := Option.isSome_iff_exists.mp (by
    rw [isSome_get?, lookup_eq_some_iff.mp hvidV]
    rfl)
  rw [hget, hw]
  rfl

/-- Whatever is lent to a by-reference parameter of `fn`, every lent name stays one. -/
theorem params_append {q : Param} {src : Lent} (h : Binding fn V pre lent W) (hq : q ∈ fn.params)
    (href : q.byRef = true) :
    ∀ p s, (p, s) ∈ lent ++ [(q.name, src)] → ∃ q' ∈ fn.params, q'.byRef = true ∧ q'.name = p := by
  intro p s hp
  rcases List.mem_append.mp hp with hp | hp
  · exact h.params p s hp
  · simp only [List.mem_singleton, Prod.mk.injEq] at hp
    exact ⟨q, hq, href, hp.1.symm⟩

/-- Lending the variable `y` from its slot `vid` to the by-reference parameter `q`. -/
theorem lend {q : Param} {y : String} {vid : Nat} (h : Binding fn V pre lent W) (hq : q ∈ fn.params)
    (href : q.byRef = true) (hvid : W.lookup y = some vid) :
    Binding fn V (pre ++ [y]) (lent ++ [(q.name, .var vid)]) (W.setSlot vid .null) := by
  refine ⟨fun j => by rw [nameOf?_setSlot, h.names j], ?_, fun p v hp => ?_, h.params_append hq href⟩
  · rw [lentSlots_append_var]
    refine (h.same.mono fun j hj => List.mem_append_left _ hj).trans ?_
    exact SameOutside.setSlot W (List.mem_append_right _ (List.mem_singleton_self vid)) _
  · rcases List.mem_append.mp hp with hp | hp
    · obtain ⟨y', hy', hv⟩ := h.slots p v hp
      exact ⟨y', List.mem_append_left _ hy', hv⟩
    · simp only [List.mem_singleton, Prod.mk.injEq, Lent.var.injEq] at hp
      obtain ⟨-, rfl⟩ := hp
      exact ⟨y, List.mem_append_right _ (List.mem_singleton_self y), (h.lookup_eq y) ▸ hvid⟩

/-- Lending a dataset series to the by-reference parameter `q`: the table is not touched. -/
theorem lendSeries {q : Param} {sid : Nat} (h : Binding fn V pre lent W) (hq : q ∈ fn.params)
    (href : q.byRef = true) : Binding fn V pre (lent ++ [(q.name, .series sid)]) W := by
  refine ⟨h.names, (lentSlots_append_series lent q.name sid) ▸ h.same, fun p v hp => ?_,
    h.params_append hq href⟩
  rcases List.mem_append.mp hp with hp | hp
  · exact h.slots p v hp
  · simp only [List.mem_singleton, Prod.mk.injEq, reduceCtorEq, and_false] at hp

end Binding

namespace Bound

variable {V locals : VarTable} {lent : List (String × Lent)} {q : String} {v : Value}

theorem start (V : VarTable) : Bound V {} [] :=
  ⟨fun _ _ h => absurd h List.not_mem_nil, fun _ _ h => absurd h List.not_mem_nil, List.nodup_nil⟩

/-- The lent names are names of the locals, so a fresh name is none of them. -/
theorem ne_of_fresh (h : Bound V locals lent) (hq : locals.lookup q = none) {p : String}
    {src : Lent} (hp : (p, src) ∈ lent) : p ≠ q := by
  rintro rfl
  have := h.present p src hp
  rw [hq] at this
  cases this

/-- Binding a parameter that lends nothing. -/
theorem push (h : Bound V locals lent) (hq : locals.lookup q = none) :
    Bound V (locals.push q v hq) lent := by
  refine ⟨fun p vid hp => ?_, fun p src hp => ?_, h.distinct⟩
  · rw [valueOf?_push_ne _ hq (h.ne_of_fresh hq hp)]
    exact h.values p vid hp
  · rw [lookup_push_ne _ hq (h.ne_of_fresh hq hp)]
    exact h.present p src hp

/-- Binding a by-reference parameter to what it was lent. -/
theorem lend {src : Lent} (h : Bound V locals lent) (hq : locals.lookup q = none)
    (hv : ∀ vid, src = .var vid → V.get? vid = some v) :
    Bound V (locals.push q v hq) (lent ++ [(q, src)]) := by
  refine ⟨fun p vid hp => ?_, fun p src' hp => ?_, ?_⟩
  · rcases List.mem_append.mp hp with hp | hp
    · exact (h.push hq).values p vid hp
    · simp only [List.mem_singleton, Prod.mk.injEq] at hp
      obtain ⟨rfl, rfl⟩ := hp
      rw [valueOf?_push_self _ hq, hv vid rfl]
  · rcases List.mem_append.mp hp with hp | hp
    · exact (h.push hq).present p src' hp
    · simp only [List.mem_singleton, Prod.mk.injEq] at hp
      rw [hp.1, lookup_push_self _ hq]
      rfl
  · rw [List.map_append, List.nodup_append]
    refine ⟨h.distinct, by simp, fun a ha b hb => ?_⟩
    obtain ⟨⟨p, src'⟩, hp, rfl⟩ := List.mem_map.mp ha
    simp only [List.map_cons, List.map_nil, List.mem_singleton] at hb
    subst hb
    exact h.ne_of_fresh hq hp

/-- Locals that give the lent names the same values hold them as well. -/
theorem congr {locals' : VarTable} (h : Bound V locals lent)
    (hsame : ∀ p src, (p, src) ∈ lent → locals'.valueOf? p = locals.valueOf? p) :
    Bound V locals' lent := by
  refine ⟨fun p vid hp => (hsame p _ hp).trans (h.values p vid hp), fun p src hp => ?_, h.distinct⟩
  rw [← isSome_valueOf?, hsame p src hp, isSome_valueOf?]
  exact h.present p src hp

end Bound

/-- Evaluating and converting a by-value argument leaves the caller's table alone. -/
theorem converted_stays {P : Workspace → Prop} (id : Nat) (t : DeclaredType) :
    Stays fr P (converted id t) :=
  (Stays.operand id).bind fun _ => Stays.workspace.bind fun _ => Stays.lift _

theorem lentNames_nodup_rest {pre : List String} {p : Param} {node : Nat} {rest : List (Param × Nat)}
    (h : (pre ++ fr.forest.lentNames ((p, node) :: rest)).Nodup) :
    (pre ++ fr.forest.lentNames rest).Nodup := by
  rw [Forest.lentNames_cons] at h
  exact h.sublist (List.Sublist.append_left (List.sublist_append_right _ _) pre)

/-- **Binding keeps the invariants.** Binding the arguments `ps`, after arguments whose lent names
are `pre`, keeps `Binding` and, where `C` promises valid by-reference names, distinct lent names
and an id for every parameter still to bind, `Bound`. -/
theorem bindArgs_triple {child : Nat → EvalM Nat}
    (hchild : ∀ c vs, Stays fr (fun ws => ws.vars = vs) (child c)) {fn : UserFunction}
    {V : VarTable} {C : Prop} (hvalid : C → ∀ q ∈ fn.params, q.byRef = true → isValidName q.name = true) :
    ∀ (ps : List (Param × Nat)) (pre : List String) (locals : VarTable) (lent : List (String × Lent)),
      (∀ e ∈ ps, e.1 ∈ fn.params) → (C → (pre ++ fr.forest.lentNames ps).Nodup) →
      (C → locals.slots.size + ps.length ≤ idLimit) →
      Triple fr (fun ws => Binding fn V pre lent ws.vars ∧ (C → Bound V locals lent))
        (bindArgs child ps locals lent) fun res ws =>
          ∃ pre', (∀ y ∈ pre', y ∈ pre ∨ y ∈ fr.forest.lentNames ps) ∧
            Binding fn V pre' res.2.1 ws.vars ∧ (C → Bound V res.1 res.2.1) := by
  intro ps
  induction ps with
  | nil =>
    intro pre locals lent _ _ _
    rw [bindArgs]
    exact Triple.pure _ fun ws h => ⟨pre, fun y hy => .inl hy, h⟩
  | cons e rest ih =>
    obtain ⟨p, node⟩ := e
    intro pre locals lent hps hnd hroom
    have hp : p ∈ fn.params := hps _ List.mem_cons_self
    have hrest : ∀ e ∈ rest, e.1 ∈ fn.params := fun e he => hps e (List.mem_cons_of_mem _ he)
    have hpre : ∀ y ∈ pre, y ∈ pre ∨ y ∈ fr.forest.lentNames ((p, node) :: rest) :=
      fun y hy => .inl hy
    rw [bindArgs]
    split
    · exact Triple.pure _ fun ws h => ⟨pre, hpre, h⟩
    · rename_i hfresh
      have hnone : locals.lookup p.name = none := by simpa using hfresh
      -- a by-reference name goes in: it is valid, and an id is left for it
      have hbinds : C → p.byRef = true → ¬(isValidName p.name = false ∨ idLimit ≤ locals.slots.size) :=
        fun c href h => by
          have := hroom c
          simp only [List.length_cons] at this
          rcases h with h | h
          · rw [hvalid c p hp href] at h
            cases h
          · omega
      have hroom' : ∀ v, C → (locals.push p.name v hnone).slots.size + rest.length ≤ idLimit :=
        fun v c => by
          have := hroom c
          simp only [List.length_cons] at this
          rw [size_push]
          omega
      extract_lets jp
      have hup : ∀ y ∈ fr.forest.lentNames rest, y ∈ fr.forest.lentNames ((p, node) :: rest) :=
        fun y hy => by rw [Forest.lentNames_cons]; exact List.mem_append_right _ hy
      -- an argument that lends nothing new: the rest is bound after it, or its error returned
      have keep : ∀ got, Triple fr (fun ws => Binding fn V pre lent ws.vars ∧ (C → Bound V locals lent))
          (jp (got, lent)) fun res ws =>
            ∃ pre', (∀ y ∈ pre', y ∈ pre ∨ y ∈ fr.forest.lentNames ((p, node) :: rest)) ∧
              Binding fn V pre' res.2.1 ws.vars ∧ (C → Bound V res.1 res.2.1) := by
        intro got
        dsimp only [jp]
        split
        · exact Triple.pure _ fun ws h => ⟨pre, hpre, h⟩
        · split
          · exact Triple.pure _ fun ws h => ⟨pre, hpre, h⟩
          · rename_i value locals' _ hins
            obtain rfl := insert_fresh_eq_ok hnone hins
            refine ((ih pre _ lent hrest (fun c => lentNames_nodup_rest (hnd c)) (hroom' _)).weaken
              fun ws h => ⟨h.1, fun c => (h.2 c).push hnone⟩).conseq fun res ws h => ?_
            obtain ⟨pre', hsub, hb⟩ := h
            exact ⟨pre', fun y hy => (hsub y hy).imp id (hup y), hb⟩
      split
      · -- a by-reference argument: borrow the variable or copy the series
        rename_i href
        refine Triple.of_forall fun ws₀ h₀ => ?_
        obtain ⟨hb, hc⟩ := h₀
        refine Triple.bind ((attempt_triple (borrow_triple p node ws₀.vars)
          (borrow_failsIn p node ws₀.vars)).weaken fun ws h => h ▸ rfl) fun r => ?_
        split
        · rename_i borrowed
          obtain ⟨value, source⟩ := borrowed
          simp only [pure_bind]
          cases source with
          | var vid =>
            refine Triple.of_forall fun ws₁ h₁ => ?_
            obtain ⟨y, hy, hvid, hws₁, hvalue⟩ := h₁
            have hnames : fr.forest.lentNames ((p, node) :: rest) = y :: fr.forest.lentNames rest := by
              rw [Forest.lentNames_cons, if_pos href, hy]
              rfl
            have hb' : Binding fn V (pre ++ [y]) (lent ++ [(p.name, .var vid)]) ws₁.vars :=
              hws₁ ▸ hb.lend hp href hvid
            have hsub : ∀ z ∈ pre ++ [y], z ∈ pre ∨ z ∈ fr.forest.lentNames ((p, node) :: rest) := by
              intro z hz
              rw [hnames]
              rcases List.mem_append.mp hz with hz | hz
              · exact .inl hz
              · exact .inr (List.mem_singleton.mp hz ▸ List.mem_cons_self)
            dsimp only [jp]
            split
            · -- the name was refused: an invalid name, or no id left
              rename_i de hins
              refine Triple.pure _ fun ws h => ⟨pre ++ [y], hsub, by subst h; exact hb', fun c => ?_⟩
              exact absurd (isValidName_of_insert_fresh_eq_error hnone hins) (hbinds c href)
            · rename_i locals' _ hins
              obtain rfl := insert_fresh_eq_ok hnone hins
              have hnd' : C → (pre ++ [y] ++ fr.forest.lentNames rest).Nodup := fun c => by
                have h := hnd c
                rw [hnames] at h
                simpa using h
              -- the value lent is the variable's value before the call
              have hlent : C → V.get? vid = some value := fun c => by
                have hfresh : y ∉ pre := by
                  have h := hnd c
                  rw [hnames, List.nodup_append] at h
                  exact fun hy' => h.2.2 y hy' y List.mem_cons_self rfl
                rw [hvalue]
                exact hb.lent_value hfresh hvid
              refine ((ih (pre ++ [y]) _ _ hrest hnd' (hroom' _)).weaken fun ws h =>
                ⟨by subst h; exact hb', fun c => (hc c).lend hnone fun v hv => ?_⟩).conseq
                  fun res ws h => ?_
              · cases hv
                exact hlent c
              · obtain ⟨pre', hsub', hb''⟩ := h
                exact ⟨pre', fun z hz => (hsub' z hz).elim (hsub z) fun h => .inr (hup z h), hb''⟩
          | series sid =>
            refine Triple.of_forall fun ws₁ h₁ => ?_
            have hb' : Binding fn V pre (lent ++ [(p.name, .series sid)]) ws₁.vars :=
              (show ws₁.vars = ws₀.vars from h₁) ▸ hb.lendSeries hp href
            dsimp only [jp]
            split
            · rename_i de hins
              refine Triple.pure _ fun ws h => ⟨pre, hpre, by subst h; exact hb', fun c => ?_⟩
              exact absurd (isValidName_of_insert_fresh_eq_error hnone hins) (hbinds c href)
            · rename_i locals' _ hins
              obtain rfl := insert_fresh_eq_ok hnone hins
              refine ((ih pre _ _ hrest (fun c => lentNames_nodup_rest (hnd c)) (hroom' _)).weaken fun ws h =>
                ⟨by subst h; exact hb', fun c => (hc c).lend hnone fun _ h => by cases h⟩).conseq
                  fun res ws h => ?_
              obtain ⟨pre', hsub', hb''⟩ := h
              exact ⟨pre', fun z hz => (hsub' z hz).imp id (hup z), hb''⟩
        · rename_i e
          simp only [pure_bind]
          exact (keep (.error e)).weaken fun ws (h : ws.vars = ws₀.vars) => ⟨h ▸ hb, hc⟩
      · -- a by-value argument: evaluated and converted, nothing lent
        refine Triple.of_forall fun ws₀ h₀ => ?_
        obtain ⟨hb, hc⟩ := h₀
        have hstays : Stays fr (fun ws => ws.vars = ws₀.vars)
            (do let id ← child node; converted id p.declared) :=
          (hchild node _).bind fun _ => converted_stays _ _
        refine Triple.bind ((attempt_triple (Triple.of_stays hstays)
          (FailsIn.of_stays hstays fun _ h => h)).weaken fun ws h => h ▸ rfl) fun r => ?_
        simp only [pure_bind]
        cases r with
        | ok v => exact (keep (.ok v)).weaken fun ws (h : ws.vars = ws₀.vars) => ⟨h ▸ hb, hc⟩
        | error e => exact (keep (.error e)).weaken fun ws (h : ws.vars = ws₀.vars) => ⟨h ▸ hb, hc⟩

/-! ## Handing back -/

/-- What the items of `todo` still to be handed back need: their slots differ from `V` at most in
their values, and each lent value sits in the locals under its own name. -/
def Pending (V : VarTable) (todo : List (String × Lent)) (locals W : VarTable) : Prop :=
  V.SameOutside W (lentSlots todo) ∧ (∀ j, W.nameOf? j = V.nameOf? j) ∧ Bound V locals todo

/-- Taking a parameter out of the locals keeps the other lent values where they are. -/
theorem Bound.take {V locals : VarTable} {p : String} {src : Lent} {rest : List (String × Lent)}
    (h : Bound V locals ((p, src) :: rest)) {lid : Nat} (hlid : locals.lookup p = some lid) (v : Value) :
    Bound V (locals.setSlot lid v) rest := by
  have hname := lookup_eq_some_iff.mp hlid
  have hne : ∀ q src', (q, src') ∈ rest → q ≠ p := by
    intro q src' hq hqp
    subst hqp
    exact (List.nodup_cons.mp h.distinct).1 (List.mem_map.mpr ⟨(q, src'), hq, rfl⟩)
  refine ⟨fun q vid hq => ?_, fun q src' hq => ?_, (List.nodup_cons.mp h.distinct).2⟩
  · rw [valueOf?_setSlot_of_ne _ _ (by rw [hname]; exact fun e => hne q _ hq (Option.some.inj e).symm)]
    exact h.values q vid (List.mem_cons_of_mem _ hq)
  · rw [lookup_setSlot]
    exact h.present q src' (List.mem_cons_of_mem _ hq)

theorem Bound.tail {V locals : VarTable} {e : String × Lent} {rest : List (String × Lent)}
    (h : Bound V locals (e :: rest)) : Bound V locals rest :=
  ⟨fun q vid hq => h.values q vid (List.mem_cons_of_mem _ hq),
    fun q src hq => h.present q src (List.mem_cons_of_mem _ hq), (List.nodup_cons.mp h.distinct).2⟩

/-- **Handing back.** It writes or empties only lent slots, each the slot of its own name, so it
keeps every name that no lent slot holds. When every lent value is still bound in the locals
under distinct names, it writes each lent slot back with its old value. -/
theorem giveBack_spec {V : VarTable} {lent : List (String × Lent)} (locals : VarTable)
    (hslots : ∀ p vid, (p, Lent.var vid) ∈ lent → ∃ y, V.lookup y = some vid) :
    Stays fr (fun ws => V.SameOutside ws.vars (lentSlots lent)) (giveBack lent locals) ∧
      ∀ m, Pending V lent locals m.ws.vars →
        V.SameOutside ((giveBack lent locals).exec fr m).2.ws.vars [] := by
  unfold giveBack
  refine ⟨Stays.bind (Stays.foldlM _ _ fun acc e he => ?step) fun res => ?tail₁,
    Total.bind_stays
      (Total.foldlM (fun todo (acc : VarTable × List (Nat × Value) × Option String) ws =>
        Pending V todo acc.1 ws.vars) ?restore lent (locals, [], none))
      (fun _ _ h => h.1) fun res => ?tail₂⟩
  case step =>
    obtain ⟨name, source⟩ := e
    obtain ⟨locs, seriesBack, lost⟩ := acc
    dsimp only
    split
    · split
      · rename_i vid
        refine (Stays.modifyWorkspace ?_).bind fun _ => Stays.pure _
        exact fun ws h => h.trans (SameOutside.setSlot _ (mem_lentSlots.mpr ⟨name, he⟩) _)
      · exact Stays.pure _
    · split
      · -- the local is gone: the caller's variable goes with it
        rename_i vid
        refine Stays.workspace_bind fun m hm => ?_
        split
        · rename_i var hvar
          obtain ⟨y, hy⟩ := hslots name vid he
          have hvid := mem_lentSlots.mpr ⟨name, he⟩
          have hyvar : V.nameOf? vid = some var := by
            rcases hm.2 vid hvid with hn | hn
            · exact hn ▸ hvar
            · rw [hn] at hvar
              cases hvar
          split
          · rename_i vars _ hremove
            rw [exec_bind]
            exact hm.trans (SameOutside.remove hremove (lookup_eq_some_iff.mpr hvar) hvid)
          · rw [exec_bind]
            exact hm
        · exact hm
      · exact Stays.pure _
  case restore =>
    -- the first pending item is still bound in the locals, under a name no later item has
    intro c rest acc m hm
    obtain ⟨name, source⟩ := c
    obtain ⟨locs, seriesBack, lost⟩ := acc
    obtain ⟨hsame, hnames, hbound⟩ := hm
    obtain ⟨lid, hlid⟩ := Option.isSome_iff_exists.mp (hbound.present name source List.mem_cons_self)
    obtain ⟨w, hw⟩ : ∃ w, locs.get? lid = some w := by
      refine Option.isSome_iff_exists.mp ?_
      rw [isSome_get?, lookup_eq_some_iff.mp hlid]
      rfl
    have hrest := hbound.take hlid .null
    dsimp only
    simp only [hlid, VarTable.take, hw]
    cases source with
    | var vid =>
      have hv : V.get? vid = some w := by
        rw [← hbound.values name vid List.mem_cons_self, valueOf?, hlid]
        exact hw
      simp only [exec_bind, exec_modifyWorkspace, exec_pure]
      exact ⟨_, rfl, hsame.restore (hnames vid) hv, fun j => by simp [hnames], hrest⟩
    | series sid => exact ⟨_, rfl, hsame, hnames, hrest⟩
  all_goals
    -- the series written back and a lost parameter touch only the dataset and the result
    obtain ⟨_, seriesBack, lost⟩ := res
    dsimp only
    refine (Stays.forIn _ _ fun c _ b => ?_).bind fun _ => ?_
    · obtain ⟨sid, value⟩ := c
      dsimp only
      split
      · refine Stays.workspace.bind fun ws => Stays.ite ?_ (Stays.pure _)
        split
        · refine (Stays.modifyWorkspace ?_).bind fun _ => Stays.pure _
          exact fun _ h => h
        · exact (Stays.throw _).bind fun _ => Stays.pure _
      · exact Stays.pure _
    · split
      · exact Stays.throw _
      · exact Stays.pure _

/-! ## The call -/

/-- What a call leaves in the caller's table, which was `V`: every name it does not lend keeps its
value, and where `C` holds, every slot is as it was. -/
def HandedBack (V : VarTable) (lent : List String) (C : Prop) (ws : Workspace) : Prop :=
  (∀ x, x ∉ lent → ws.vars.valueOf? x = V.valueOf? x) ∧ (C → V.SameOutside ws.vars [])

/-- A returning call of `fn` hands back what it was lent: see `HandedBack`. `C` stands for the
conditions under which every lent value comes back. -/
theorem invoke_triple {child : Nat → EvalM Nat} {fn : UserFunction} {args : List Nat}
    {V : VarTable} {C : Prop} (hchild : ∀ c vs, Stays fr (fun ws => ws.vars = vs) (child c))
    (hvalid : C → ∀ q ∈ fn.params, q.byRef = true → isValidName q.name = true)
    (hnodup : C → (fr.forest.lentNames (fn.params.zip args)).Nodup)
    (hroom : C → fn.params.length ≤ idLimit) (hkeep : C → fr.KeepsRefParams fn) :
    Triple fr (fun ws => ws.vars = V) (invoke child fn args)
      fun _ => HandedBack V (fr.forest.lentNames (fn.params.zip args)) C := by
  unfold invoke
  split
  · exact Triple.pure _ fun ws h => ⟨fun x _ => by rw [h], fun _ => h ▸ SameOutside.refl V []⟩
  have hps : ∀ e ∈ fn.params.zip args, e.1 ∈ fn.params := fun e he => (List.of_mem_zip he).1
  -- the locals start empty, with an id for every parameter
  have hfits : C → ({} : VarTable).slots.size + (fn.params.zip args).length ≤ idLimit := fun hC => by
    have := hroom hC
    simp only [List.length_zip]
    show 0 + min _ _ ≤ _
    omega
  refine Triple.bind ((bindArgs_triple hchild hvalid _ [] {} [] hps (fun hC => by simpa using hnodup hC)
    hfits).weaken fun ws h => ⟨h ▸ Binding.start fn V, fun _ => Bound.start V⟩) fun res => ?_
  obtain ⟨locals, lent, failure⟩ := res
  dsimp -zeta only
  extract_lets handBack
  refine Triple.of_forall fun ws₀ ⟨pre', hpre', hbind, hbound⟩ => ?_
  -- handing back always returns, in the workspace `giveBack` leaves
  have hback : ∀ res : UserFunction × Except EvalError Value × VarTable,
      Triple fr (fun ws => ws.vars = ws₀.vars ∧ (C → Bound V res.2.2 lent)) (handBack res)
        fun _ => HandedBack V (fr.forest.lentNames (fn.params.zip args)) C := by
    rintro ⟨fn', result, locals'⟩ m ⟨hm, hbound'⟩ a _
    have hws : ((handBack (fn', result, locals')).exec fr m).2 = ((giveBack lent locals').exec fr m).2 := by
      simp only [handBack, exec_bind, exec_tryCatch]
      generalize (giveBack lent locals').exec fr m = p
      obtain ⟨r, m'⟩ := p
      cases r <;> rfl
    have hslots : ∀ p vid, (p, Lent.var vid) ∈ lent → ∃ y, V.lookup y = some vid :=
      fun p vid hp => (hbind.slots p vid hp).imp fun _ h => h.2
    have hstart : V.SameOutside m.ws.vars (lentSlots lent) := hm ▸ hbind.same
    rw [hws]
    refine ⟨fun x hx => SameOutside.valueOf?_eq ((giveBack_spec locals' hslots).1 m hstart)
      fun j hj hjx => ?_, fun hC => (giveBack_spec locals' hslots).2 m
        ⟨hstart, fun j => hm ▸ hbind.names j, hbound' hC⟩⟩
    rcases hpre' x (hbind.mem_pre hj hjx) with h | h
    · cases h
    · exact hx h
  split
  · exact Triple.bind (Triple.pure _ fun ws h => ⟨congrArg Workspace.vars h, hbound⟩) hback
  · refine Triple.read_bind (Triple.workspace_bind fun ws hws => ?_)
    subst hws
    extract_lets finish
    -- the body ran against the locals; the caller's table comes back as binding left it
    have hfinish : Triple fr (· = ws) (finish ())
        fun _ => HandedBack V (fr.forest.lentNames (fn.params.zip args)) C := by
      refine Triple.modifyWorkspace_bind fun _ _ => Triple.bind (Triple.pure _ fun _ h =>
        ⟨by rw [h]; rfl, fun hC => (hbound hC).congr fun p src hp => ?_⟩) hback
      obtain ⟨q, hq, href, rfl⟩ := hbind.params p src hp
      exact hkeep hC _ q hq href
    split
    · split
      · exact (Triple.throw _).bind fun _ => hfinish
      · exact hfinish
    · exact hfinish

/-- **Pointer arguments are handed back.** A call that returns, with its value or with the error
of its binding, its body or its conversion, keeps the value of every caller variable it does not
lend. When the by-reference parameters have valid names, the function has no more parameters
than there are ids for locals, no variable is lent twice and the body keeps its by-reference
parameters, every caller variable keeps its value. -/
theorem invoke_hands_back {child : Nat → EvalM Nat} {fn : UserFunction} {args : List Nat}
    {m : Machine} (hchild : ∀ c vs, Stays fr (fun ws => ws.vars = vs) (child c))
    (hret : ((invoke child fn args).exec fr m).1.toBool = true) :
    (∀ x, x ∉ fr.forest.lentNames (fn.params.zip args) →
        ((invoke child fn args).exec fr m).2.ws.vars.valueOf? x = m.ws.vars.valueOf? x) ∧
      ((∀ q ∈ fn.params, q.byRef = true → isValidName q.name = true) → fn.params.length ≤ idLimit →
        (fr.forest.lentNames (fn.params.zip args)).Nodup → fr.KeepsRefParams fn →
        ∀ x, ((invoke child fn args).exec fr m).2.ws.vars.valueOf? x = m.ws.vars.valueOf? x) := by
  obtain ⟨r, hr⟩ : ∃ r, ((invoke child fn args).exec fr m).1 = .ok r := by
    revert hret
    cases ((invoke child fn args).exec fr m).1 with
    | ok r => exact fun _ => ⟨r, rfl⟩
    | error e =>
      intro h
      cases h
  have htriple : Triple fr (fun ws => ws.vars = m.ws.vars) (invoke child fn args)
      fun _ => HandedBack m.ws.vars (fr.forest.lentNames (fn.params.zip args))
        ((∀ q ∈ fn.params, q.byRef = true → isValidName q.name = true) ∧ fn.params.length ≤ idLimit ∧
          (fr.forest.lentNames (fn.params.zip args)).Nodup ∧ fr.KeepsRefParams fn) :=
    invoke_triple hchild (fun hC => hC.1) (fun hC => hC.2.2.1) (fun hC => hC.2.1) fun hC => hC.2.2.2
  obtain ⟨hkept, hall⟩ := htriple m rfl r hr
  refine ⟨hkept, fun hvalid hroom hnodup hkeep x => ?_⟩
  exact (hall ⟨hvalid, hroom, hnodup, hkeep⟩).valueOf?_eq fun _ h => by cases h

/-- A frame over `&p` (node 1) whose bodies return at once. -/
def refFrame : Frame :=
  { forest := { nodes := #[.ident 0, .ref 0], names := #["p"] }, target := .any,
    invoke := fun ws fn => (ws, fn, .ok .null) }

/-- A caller whose only variable is `p = 1`. -/
def callerMachine : Machine :=
  { ws := { dataset := Dataset.create 0
            vars := ({} : VarTable).push "p" (.scalar 1) (VarTable.lookup_empty "p") }
    cells := {} }

/-- `f(&a)`, and the same function with a by-reference parameter whose name is not valid. -/
def refFn : UserFunction := { name := "f", params := [{ name := "a", byRef := true }] }

def badRefFn : UserFunction := { name := "f", params := [{ name := "1a", byRef := true }] }

theorem refCall_hands_back :
    ((invoke (fun c => pure c) refFn [1]).exec refFrame callerMachine).2.ws.vars.valueOf? "p" =
      callerMachine.ws.vars.valueOf? "p" :=
  (invoke_hands_back (fun _ _ => Stays.pure _) (by decide +kernel)).2 (by decide +kernel)
    (by decide) (by decide +kernel) (fun _ _ _ _ => rfl) "p"

/-- A by-reference parameter whose name cannot be bound loses what it was lent: the call
returns its binding error and the caller's `p` is gone. -/
theorem badRefCall_drops_caller_var :
    ((invoke (fun c => pure c) badRefFn [1]).exec refFrame callerMachine).1.toBool = true ∧
      callerMachine.ws.vars.lookup "p" = some 0 ∧
      ((invoke (fun c => pure c) badRefFn [1]).exec refFrame callerMachine).2.ws.vars.lookup "p" =
        none := by
  decide +kernel

end Walk

end SeriesCalc
