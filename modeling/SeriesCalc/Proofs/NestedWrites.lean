import SeriesCalc.Proofs.Values.Blocks
import SeriesCalc.Proofs.Vars
import SeriesCalc.Proofs.Cells.Frame
import SeriesCalc.Proofs.Values.Throughout

/-!
# Nested writes read back

`b.k = x`, `a[i] = x` and every deeper chain of them write down a path of a variable's value
(`Assign.writeInto`); an expression reads the same path through live aliases, cells that stand
for `Handle.member root path` and resolve it on every read (`Walk.access`). This module shows the
two agree.

* **Paths** (`Value.putAt`): the put of a write, each container on the path rebuilt around what
  it holds. Following the path of a put reads the value back (`foldlM_follow_putAt`); a path that
  leaves it reads as before (`foldlM_follow_putAt_ne`, `foldlM_follow_putAt_off`); the containers
  on it keep their keys (`keys_putAt_prefix`).
* **Writes**: `Reaches` says the containers of a path exist. Below them, a write is the write at
  the last step put back along the path (`writeInto_reaches`); a plain write of a value that is
  not null with no declared type stores the value as it is, at a bundle's key or an array's
  position (`writeLeaf_assign`), and changes the one variable (`write_assign_reaches`).
* **Reads**: subscripting a cell that stands for a variable or a member of one binds a cell one
  accessor deeper (`Walk.access_member_exec`), which reads what that handle resolves to
  (`Walk.access_member_reads`, from `CellStore.content?_bind_self` and `CellStore.read_of_alias`).
* **`nested_assign_put_get`**: together, the lens laws of a nested write.
-/

namespace SeriesCalc

/-! ## Paths -/

namespace Value

/-- The keys of a bundle, in order; no other value has keys. -/
def keys : Value → List String
  | .bundle ms => Members.keys ms
  | _ => []

/-- `v` with `x` put at the end of the accessors, each container on the way rebuilt around what
it holds there: the put of a nested write. -/
def putAt (v : Value) : List Accessor → Value → Value
  | [], x => x
  | a :: rest, x => Assign.replaceAt v a (putAt ((Accessor.follow v a).toOption.getD .null) rest x)

theorem putAt_cons {v mid : Value} {a : Accessor} (h : Accessor.follow v a = .ok mid) (rest : List Accessor)
    (x : Value) : v.putAt (a :: rest) x = Assign.replaceAt v a (mid.putAt rest x) := by
  rw [putAt, h]
  rfl

end Value

namespace Accessor

open Value

theorem foldlM_follow_cons (v : Value) (a : Accessor) (rest : List Accessor) :
    (a :: rest).foldlM Accessor.follow v =
      (Accessor.follow v a).bind fun mid => rest.foldlM Accessor.follow mid :=
  rfl

/-- A path that leads somewhere starts with a step that leads somewhere. -/
theorem foldlM_follow_cons_ok {v m : Value} {a : Accessor} {rest : List Accessor}
    (h : (a :: rest).foldlM Accessor.follow v = .ok m) :
    ∃ mid, Accessor.follow v a = .ok mid ∧ rest.foldlM Accessor.follow mid = .ok m :=
  Except.bind_eq_ok h

/-- Reading back the accessors a value was put at gives the value, when the accessors led
somewhere before. -/
theorem foldlM_follow_putAt : ∀ {v : Value} {accs : List Accessor} {inner : Value},
    accs.foldlM Accessor.follow v = .ok inner → ∀ x, accs.foldlM Accessor.follow (v.putAt accs x) = .ok x
  | _, [], _, _, _ => rfl
  | v, a :: rest, inner, h, x => by
    obtain ⟨mid, hmid, h⟩ := foldlM_follow_cons_ok h
    rw [putAt_cons hmid, foldlM_follow_cons, Assign.follow_replaceAt_self hmid]
    exact foldlM_follow_putAt h x

/-- A prefix of accessors that lead somewhere leads somewhere too. -/
theorem foldlM_follow_append {v m : Value} {l₁ l₂ : List Accessor}
    (h : (l₁ ++ l₂).foldlM Accessor.follow v = .ok m) :
    ∃ mid, l₁.foldlM Accessor.follow v = .ok mid ∧ l₂.foldlM Accessor.follow mid = .ok m := by
  rw [List.foldlM_append] at h
  exact Except.bind_eq_ok h

/-- A path that leaves the written one at some container reads as before: the put changes only
what lies along its own accessors. -/
theorem foldlM_follow_putAt_ne {b c : Accessor} (hne : b ≠ c) (post rest : List Accessor) (x : Value) :
    ∀ {v : Value} {pre : List Accessor} {m : Value}, pre.foldlM Accessor.follow v = .ok m →
      (pre ++ b :: post).foldlM Accessor.follow (v.putAt (pre ++ c :: rest) x) =
        (pre ++ b :: post).foldlM Accessor.follow v
  | v, [], _, _ => by
    rw [List.nil_append, List.nil_append, putAt, foldlM_follow_cons, foldlM_follow_cons,
      Assign.follow_replaceAt_ne _ _ hne]
  | v, a :: pre, m, h => by
    obtain ⟨mid, hmid, h⟩ := foldlM_follow_cons_ok h
    rw [List.cons_append, List.cons_append, putAt_cons hmid, foldlM_follow_cons, foldlM_follow_cons,
      Assign.follow_replaceAt_self hmid, hmid]
    exact foldlM_follow_putAt_ne hne post rest x h

/-- A put of a new innermost container `w` that reads as the old one `inner` everywhere but at
`a` leaves every path that leaves `accs ++ [a]` reading as before. -/
theorem foldlM_follow_putAt_off {slot inner w : Value} {accs : List Accessor} {a : Accessor}
    (hreach : accs.foldlM Accessor.follow slot = .ok inner)
    (hframe : ∀ b, b ≠ a → Accessor.follow w b = Accessor.follow inner b)
    {pre rest post : List Accessor} {b c : Accessor} (hsplit : accs ++ [a] = pre ++ c :: rest)
    (hne : b ≠ c) :
    (pre ++ b :: post).foldlM Accessor.follow (slot.putAt accs w) =
      (pre ++ b :: post).foldlM Accessor.follow slot := by
  rcases List.eq_nil_or_concat rest with rfl | ⟨mid, d, rfl⟩
  · -- the path leaves at the written container itself
    obtain ⟨rfl, hca⟩ := List.append_inj' hsplit rfl
    obtain rfl : a = c := (List.cons.inj hca).1
    rw [List.foldlM_append, List.foldlM_append, foldlM_follow_putAt hreach, hreach]
    simp only [Except.bind, bind, foldlM_follow_cons, hframe b hne]
  · -- the path leaves above it
    have hsplit' : accs ++ [a] = (pre ++ c :: mid) ++ [d] := by
      rw [hsplit, List.concat_eq_append, List.append_assoc, List.cons_append]
    obtain ⟨rfl, -⟩ := List.append_inj' hsplit' rfl
    obtain ⟨m, hpre, -⟩ := foldlM_follow_append hreach
    exact foldlM_follow_putAt_ne hne post mid w hpre

/-- The keys a container has after a put at an accessor: a new key of a bundle comes last. -/
def addKey (a : Accessor) (keys : List String) : List String :=
  match a with
  | .key k => if k ∈ keys then keys else keys ++ [k]
  | .elem _ => keys

end Accessor

namespace Members

theorem contains_iff_mem_keys (ms : Members) (k : String) :
    Members.contains ms k = true ↔ k ∈ Members.keys ms := by
  simp [Members.contains, Members.keys]

/-- Setting a member keeps the keys in their order; a new key comes last. -/
theorem keys_insert (ms : Members) (k : String) (v : Value) :
    Members.keys (Members.insert ms k v).1 =
      if k ∈ Members.keys ms then Members.keys ms else Members.keys ms ++ [k] := by
  unfold Members.insert
  by_cases hc : Members.contains ms k = true
  · rw [if_pos hc, if_pos ((contains_iff_mem_keys ms k).mp hc)]
    simp only [Members.keys, List.map_map]
    congr 1
    funext e
    obtain ⟨k', w⟩ := e
    simp only [Function.comp_apply]
    split <;> rfl
  · have hmem : k ∉ Members.keys ms := fun h => hc ((contains_iff_mem_keys ms k).mpr h)
    rw [if_neg hc, if_neg hmem]
    simp only [Members.keys, List.map_append, List.map_cons, List.map_nil]

end Members

namespace Value

/-- Putting a value at a member a bundle has, or at an element of an array, keeps the container's
keys. -/
theorem keys_replaceAt {v mid : Value} {a : Accessor} (h : Accessor.follow v a = .ok mid) (y : Value) :
    (Assign.replaceAt v a y).keys = v.keys := by
  unfold Assign.replaceAt
  split
  · rename_i ms k
    have hget : (Members.get? ms k).isSome := by
      dsimp only [Accessor.follow] at h
      cases hg : Members.get? ms k with
      | none => rw [hg] at h; cases h
      | some _ => rfl
    have hmem : k ∈ Members.keys ms := by
      unfold Members.get? at hget
      rw [← Members.contains_iff_mem_keys]
      unfold Members.contains
      simpa [List.find?_isSome] using hget
    simp only [keys, Members.keys_insert, hmem, ↓reduceIte]
  · rfl
  · rfl

theorem keys_putAt_prefix {x : Value} {c : Accessor} {rest : List Accessor} :
    ∀ {v m : Value} {pre : List Accessor}, (pre ++ c :: rest).foldlM Accessor.follow v = .ok m →
      (pre.foldlM Accessor.follow (v.putAt (pre ++ c :: rest) x)).map keys =
        (pre.foldlM Accessor.follow v).map keys
  | v, m, [], h => by
    obtain ⟨mid, hmid, -⟩ := Accessor.foldlM_follow_cons_ok h
    rw [List.nil_append, putAt_cons hmid]
    exact congrArg Except.ok (keys_replaceAt hmid _)
  | v, m, a :: pre, h => by
    obtain ⟨mid, hmid, h⟩ := Accessor.foldlM_follow_cons_ok h
    rw [List.cons_append, putAt_cons hmid, Accessor.foldlM_follow_cons, Accessor.foldlM_follow_cons,
      Assign.follow_replaceAt_self hmid, hmid]
    exact keys_putAt_prefix h

end Value

/-! ## Writes -/

namespace Assign

open WriteM

/-- `Reaches slot steps accs inner`: each step makes an accessor into the container it has
reached, and following those accessors leads from `slot` to `inner`: the containers a nested
write passes through exist. -/
inductive Reaches : Value → List Step → List Accessor → Value → Prop
  | nil (v : Value) : Reaches v [] [] v
  | cons {v mid inner : Value} {s : Step} {rest : List Step} {a : Accessor} {accs : List Accessor}
      (hacc : accessor v s = .ok (some a)) (hfollow : Accessor.follow v a = .ok mid)
      (hrest : Reaches mid rest accs inner) : Reaches v (s :: rest) (a :: accs) inner

theorem Reaches.foldlM {v inner : Value} {steps : List Step} {accs : List Accessor}
    (h : Reaches v steps accs inner) : accs.foldlM Accessor.follow v = .ok inner := by
  induction h with
  | nil v => rfl
  | cons _ hfollow _ ih =>
    rw [Accessor.foldlM_follow_cons, hfollow]
    exact ih

/-- A write below reachable containers is the write at the last step, put back along the
accessors; only the last step touches the workspace. -/
theorem writeInto_reaches {slot inner : Value} {path : List Step} {accs : List Accessor}
    (h : Reaches slot path accs inner) (last : Step) (op : AssignOp) (rhs : Operand) (t : Target)
    (ws : Workspace) :
    (writeInto slot op rhs t (path ++ [last])).exec ws =
      match (writeLeaf inner last op rhs t).exec ws with
      | (.ok w, ws') => (.ok (slot.putAt accs w), ws')
      | (.error e, ws') => (.error e, ws') := by
  induction h with
  | nil v =>
    rw [List.nil_append, writeInto]
    rcases (writeLeaf v last op rhs t).exec ws with ⟨_ | w, ws'⟩ <;> rfl
  | @cons v mid inner s rest a accs hacc hfollow _ ih =>
    obtain ⟨r, rs, hr⟩ := List.exists_cons_of_ne_nil
      (List.append_ne_nil_of_right_ne_nil rest (List.cons_ne_nil last []))
    rw [List.cons_append, hr, writeInto, ← hr, exec_bind, exec_lift, hacc]
    dsimp only
    rw [exec_bind, exec_lift, hfollow]
    dsimp only
    rw [exec_bind, ih]
    rcases (writeLeaf inner last op rhs t).exec ws with ⟨_ | w, ws'⟩
    · rfl
    · dsimp only
      rw [exec_pure, Value.putAt_cons hfollow]
    · exact List.cons_ne_nil r rs

/-- A plain write of a value that is not null into a member, with no declared type, stores the
value as it is. -/
theorem writeMember_assign_exec (ms : Members) (k : String) {rhs : Operand} {t : Target} (ws : Workspace)
    (hnull : rhs.value.isNull = false) (hany : t.declared = .any) :
    (writeMember ms k .assign rhs t).exec ws = (.ok (Members.insert ms k rhs.value).1, ws) := by
  have hconform : conform t.ds rhs t.declared = .ok rhs := by
    rw [hany]
    rfl
  simp only [writeMember, hnull, AssignOp.isInflected, hconform]
  rfl

/-- A plain write of a value that is not null into an element sets it, at the position the
subscript names. -/
theorem writeElement_assign_exec {kind : Option ArrayKind} {items : List Value} {i : Float} {p : Nat}
    {rhs : Operand} (t : Target) (ws : Workspace) (hpos : position i items.length = .ok p)
    (hnull : rhs.value.isNull = false) :
    (writeElement ⟨kind, items⟩ [.num i] .assign rhs t).exec ws =
      (Except.mapError (fun f : Fault => (f : EvalError)) (Elements.set ⟨kind, items⟩ p rhs.value),
        ws) := by
  have hplain : (AssignOp.assign == AssignOp.assign) = true := rfl
  simp only [writeElement, exec_bind, exec_pure, exec_lift, hpos, hnull, hplain, ↓reduceIte,
    Bool.false_eq_true]
  cases Elements.set ⟨kind, items⟩ p rhs.value <;> rfl

/-- A set that returns was at a position of the array, and put the value there. -/
theorem Elements.set_ok {e e' : Elements} {p : Nat} {v : Value} (h : e.set p v = .ok e') :
    p < e.items.length ∧ e'.items = e.items.set p v :=
  ⟨(Elements.set_eq_ok h).1, Elements.items_set h⟩

/-- The accessors a step makes: a key into a bundle, or a position into an array. -/
theorem accessor_eq_some {inner : Value} {last : Step} {a : Accessor}
    (h : accessor inner last = .ok (some a)) :
    (∃ ms k, inner = .bundle ms ∧ a = .key k ∧ (last = .key k ∨ last = .sub [.str k])) ∨
      ∃ kind items i p, inner = .array kind items ∧ last = .sub [.num i] ∧
        position i items.length = .ok p ∧ a = .elem p := by
  unfold accessor at h
  split at h
  · cases h
    exact .inl ⟨_, _, rfl, rfl, .inl rfl⟩
  · cases h
    exact .inl ⟨_, _, rfl, rfl, .inr rfl⟩
  · cases h
  · rename_i kind items i
    cases hp : position i items.length with
    | error e => rw [hp] at h; cases h
    | ok p =>
      rw [hp] at h
      cases h
      exact .inr ⟨kind, items, i, p, rfl, rfl, hp, rfl⟩
  · cases h
  · cases h

/-- The last step of a plain write of a value that is not null, with no declared type, into a
bundle or an array: the container that comes out reads the value at the step's accessor and what
it read before at every other accessor, and a new key comes last. Nothing else changes. -/
theorem writeLeaf_assign {inner w : Value} {last : Step} {a : Accessor} {rhs : Operand} {t : Target}
    {ws : Workspace} (hacc : accessor inner last = .ok (some a)) (hnull : rhs.value.isNull = false)
    (hany : t.declared = .any) (h : ((writeLeaf inner last .assign rhs t).exec ws).1 = .ok w) :
    (writeLeaf inner last .assign rhs t).exec ws = (.ok w, ws) ∧ accessor w last = .ok (some a) ∧
      Accessor.follow w a = .ok rhs.value ∧
      (∀ b, b ≠ a → Accessor.follow w b = Accessor.follow inner b) ∧
      w.keys = a.addKey inner.keys := by
  rcases accessor_eq_some hacc with
    ⟨ms, k, rfl, rfl, hlast⟩ | ⟨kind, items, i, p, rfl, rfl, hpos, rfl⟩
  · -- a member of a bundle: inserted, or replaced in place
    have hrun : (writeLeaf (.bundle ms) last .assign rhs t).exec ws =
        (.ok (.bundle (Members.insert ms k rhs.value).1), ws) := by
      simp only [writeLeaf, exec_bind, exec_lift, hacc, writeMember_assign_exec ms k ws hnull hany]
      rfl
    rw [hrun] at h
    cases h
    refine ⟨hrun, ?_, ?_, fun b hb => follow_replaceAt_ne (.bundle ms) rhs.value hb, ?_⟩
    · rcases hlast with rfl | rfl <;> rfl
    · simp only [Accessor.follow, Members.get?_insert_self]
    · exact Members.keys_insert ms k rhs.value
  · -- an element of an array: the set must succeed, which puts the position in range
    have hrun : (writeElement ⟨kind, items⟩ [.num i] .assign rhs t).exec ws = _ :=
      writeElement_assign_exec t ws hpos hnull
    cases hset : Elements.set ⟨kind, items⟩ p rhs.value with
    | error f =>
      rw [hset] at hrun
      simp only [writeLeaf, exec_bind, exec_lift, hacc, hrun] at h
      cases h
    | ok e' =>
      rw [hset] at hrun
      have hrun' : (writeLeaf (.array kind items) (.sub [.num i]) .assign rhs t).exec ws =
          (.ok e'.toValue, ws) := by
        simp only [writeLeaf, exec_bind, exec_lift, hacc, hrun]
        rfl
      rw [hrun'] at h
      cases h
      obtain ⟨hp, hitems⟩ := Elements.set_ok hset
      refine ⟨hrun', ?_, ?_, ?_, rfl⟩
      · simp only [accessor, Elements.toValue, hitems, List.length_set, hpos]
        rfl
      · simp [Elements.toValue, Accessor.follow, hitems, hp]
      · intro b hb
        cases b with
        | key k => rfl
        | elem j =>
          have hj : j ≠ p := fun h => hb (by rw [h])
          simp only [Elements.toValue, Accessor.follow, hitems, List.getElem?_set_ne (Ne.symm hj),
            List.length_set]

/-- A nested write into a variable writes into its value and stores what comes out. -/
theorem nested_var_exec {place : Place} {vid : Nat} {slot : Value} {op : AssignOp} {rhs : Operand}
    {target : DeclaredType} {ws : Workspace} (hroot : place.root = .var vid)
    (hslot : ws.vars.get? vid = some slot) :
    (nested place op rhs target).exec ws =
      match (writeInto slot op rhs ⟨ws.dataset, target, place.text⟩ place.steps).exec ws with
      | (.ok v, ws') => (.ok (), { ws' with vars := ws'.vars.setSlot vid v })
      | (.error e, ws') => (.error e, ws') := by
  simp only [nested, hroot, exec_bind, exec_get, hslot]
  rcases (writeInto slot op rhs ⟨ws.dataset, target, place.text⟩ place.steps).exec ws with
    ⟨_ | v, ws'⟩
  · rfl
  · exact exec_modify _

/-- A plain write of a value that is not null, with no declared type, down a path of existing
containers of a variable: the variable now holds its old value with the new innermost container
put back along the path, and nothing else in the workspace changes. -/
theorem write_assign_reaches {place : Place} {vid : Nat} {slot inner : Value} {path : List Step}
    {last : Step} {accs : List Accessor} {a : Accessor} {rhs : Operand} {ws : Workspace}
    (hroot : place.root = .var vid) (hsteps : place.steps = path ++ [last])
    (hslot : ws.vars.get? vid = some slot) (hpath : Reaches slot path accs inner)
    (hlast : accessor inner last = .ok (some a)) (hnull : rhs.value.isNull = false)
    (hok : ((write place .assign rhs .any).exec ws).1 = .ok ()) :
    ∃ w, (write place .assign rhs .any).exec ws =
        (.ok (), { ws with vars := ws.vars.setSlot vid (slot.putAt accs w) }) ∧
      accessor w last = .ok (some a) ∧ Accessor.follow w a = .ok rhs.value ∧
      (∀ b, b ≠ a → Accessor.follow w b = Accessor.follow inner b) ∧
      w.keys = a.addKey inner.keys := by
  have hwrite : write place .assign rhs .any = nested place .assign rhs .any := by
    have hsome : (path ++ [last]).isEmpty = false :=
      List.isEmpty_eq_false_iff.mpr (List.append_ne_nil_of_right_ne_nil path (List.cons_ne_nil last []))
    rw [write, hsteps, hsome]
    rfl
  have hrun : (nested place .assign rhs .any).exec ws = _ := nested_var_exec hroot hslot
  rw [hsteps, writeInto_reaches hpath] at hrun
  rw [hwrite, hrun] at hok ⊢
  cases hleaf : (writeLeaf inner last .assign rhs ⟨ws.dataset, .any, place.text⟩).exec ws with
  | mk r ws₁ =>
    rw [hleaf] at hok
    cases r with
    | error e => cases hok
    | ok w =>
      obtain ⟨hw, hacc, hfollow, hframe, hkeys⟩ := writeLeaf_assign hlast hnull rfl (by rw [hleaf])
      rw [hleaf] at hw
      cases hw
      exact ⟨w, rfl, hacc, hfollow, hframe, hkeys⟩

end Assign

/-! ## Reads -/

namespace Workspace

/-- A member path of a stored variable resolves by following it from the variable's value. -/
theorem resolve_member {ws : Workspace} {root : Nat} {v : Value} (h : ws.vars.get? root = some v)
    (path : List Accessor) :
    ws.resolve (.member root path) = (path.foldlM Accessor.follow v).map fun v => { value := v } := by
  simp only [Workspace.resolve, h]

theorem resolve_member_nil (ws : Workspace) (root : Nat) :
    ws.resolve (.member root []) = ws.resolve (.var root) := by
  unfold Workspace.resolve
  cases ws.vars.get? root <;> rfl

end Workspace

namespace CellStore

variable {s : CellStore}

theorem cell?_alloc_self (h : s.Consistent) (p : Payload) (r : Role) :
    (s.alloc p r).1.cell? (s.alloc p r).2 = some { payload := p, role := r } := by
  obtain ⟨-, -, hcases⟩ := alloc_cases (s := s) p r
  rcases hcases with ⟨hfree, hcells⟩ | ⟨-, -, hid, hcells⟩
  · have hvac : s.Vacant (s.alloc p r).2 := (h.mem_free _).mp (by rw [hfree]; exact List.mem_cons_self)
    rw [cell?_of_set _ hcells hvac.lt_size, if_pos rfl]
  · rw [cell?_of_push _ hcells, ← hid, if_pos rfl]

/-- The cell a bind returns aliases the handle, bound to the kind it was given. -/
theorem content?_bind_self (h : s.Consistent) (pos : Nat) (hd : Handle) (k : ValueKind) (r : Role) :
    (s.bind pos hd k r).1.content? (s.bind pos hd k r).2 = some (.alias hd, k) := by
  unfold CellStore.bind
  dsimp only
  split
  · rename_i id hreuse
    -- a cell is reused only when the position owns a live one
    have hlive : (s.cell? id).isSome := by
      split at hreuse
      · split at hreuse
        · cases hreuse
          assumption
        · cases hreuse
      · cases hreuse
    obtain ⟨c, hc⟩ := Option.isSome_iff_exists.mp hlive
    rw [content?, cell?_modifyCell, if_pos rfl, hc]
    rfl
  · rw [content?, cell?_setLink, cell?_modifyCell, if_pos rfl, cell?_alloc_self (h.unlink pos)]
    rfl

/-- A cell that aliases a handle, bound to the kind of what the handle resolves to, reads it. -/
theorem read_of_alias {id : Nat} {hd : Handle} {ws : Workspace} {o : Operand}
    (hc : s.content? id = some (.alias hd, o.kind)) (hres : ws.resolve hd = .ok o) :
    s.read ws id = .ok o := by
  unfold content? at hc
  cases hcell : s.cell? id with
  | none => rw [hcell] at hc; cases hc
  | some c =>
    rw [hcell] at hc
    obtain ⟨hp, hk⟩ : c.payload = .alias hd ∧ c.boundKind = o.kind := by
      simpa using hc
    unfold CellStore.read
    rw [hcell]
    dsimp only
    rw [hp]
    dsimp only
    rw [hres, hk]
    exact if_neg (by cases o.kind <;> decide)

/-- A cell that aliases a handle and reads reads what the handle resolves to. -/
theorem resolve_of_read {id : Nat} {hd : Handle} {ws : Workspace} {o : Operand}
    (hh : s.handle? id = some hd) (hr : s.read ws id = .ok o) : ws.resolve hd = .ok o := by
  unfold handle? at hh
  split at hh
  · rename_i c hcell
    cases hh
    unfold CellStore.read at hr
    rw [hcell] at hr
    dsimp only at hr
    obtain ⟨o', hres, hkind⟩ := Except.bind_eq_ok hr
    split at hkind
    · obtain ⟨_, hthrow, _⟩ := Except.bind_eq_ok hkind
      cases hthrow
    · cases hkind
      exact hres
  · cases hh

/-- A cell that stands for a variable, or for a member of one, and reads, reads what its member
path resolves to; a variable is its own member at the empty path. -/
theorem resolve_member_of_read {id root : Nat} {path : List Accessor} {ws : Workspace} {o : Operand}
    (hh : s.handle? id = some (.var root) ∧ path = [] ∨ s.handle? id = some (.member root path))
    (hr : s.read ws id = .ok o) : ws.resolve (.member root path) = .ok o := by
  rcases hh with ⟨hh, rfl⟩ | hh
  · rw [Workspace.resolve_member_nil]
    exact resolve_of_read hh hr
  · exact resolve_of_read hh hr

end CellStore

/-- The subscripts an expression reads a step with: `b.k` reads as `b["k"]`. -/
def Step.subscripts : Step → List Subscript
  | .key k => [.str k]
  | .sub args => args

namespace Walk

open EvalM

/-- A step that makes an accessor for a write makes the same one for a read. -/
theorem accessor_subscripts {v : Value} {s : Step} {a : Accessor} (h : Assign.accessor v s = .ok (some a)) :
    accessor v s.subscripts = .ok (some a) := by
  rcases Assign.accessor_eq_some h with
    ⟨ms, k, rfl, rfl, rfl | rfl⟩ | ⟨kind, items, i, p, rfl, rfl, hpos, rfl⟩
  · rfl
  · rfl
  · simp only [Step.subscripts, accessor, hpos]
    rfl

/-- Subscripting a cell that stands for a variable, or for a member or element of one, with a
subscript that names a member or an element binds a live alias one accessor deeper, unless what
it reaches is a list that names series the dataset no longer has. -/
theorem access_member_exec {fr : Frame} {m : Machine} {pos b root : Nat} {path : List Accessor}
    {subs : List Subscript} {base o : Operand} {a : Accessor}
    (hh : m.cells.handle? b = some (.var root) ∧ path = [] ∨ m.cells.handle? b = some (.member root path))
    (hb : m.cells.read m.ws b = .ok base) (hacc : accessor base.value subs = .ok (some a))
    (hres : m.ws.resolve (.member root (path ++ [a])) = .ok o)
    (hstale : isStaleList o.value m.ws.dataset = false) :
    (access pos b subs).exec fr m =
      (.ok (m.cells.bind pos (.member root (path ++ [a])) o.kind .part).2,
        ⟨m.ws, (m.cells.bind pos (.member root (path ++ [a])) o.kind .part).1⟩) := by
  unfold access
  simp only [exec_bind, exec_operand, hb]
  split
  · -- a list's subscript makes no accessor
    rename_i hv
    rw [hv] at hacc
    cases hacc
  · simp only [exec_bind, exec_lift, hacc, exec_get]
    -- the member path the access records: one accessor past the base's
    rcases hh with ⟨hh, rfl⟩ | hh
    · rw [List.nil_append] at hres ⊢
      simp only [hh, exec_bind, exec_lift, hres, hstale, bindCell, exec_modifyCells, exec_pure,
        Bool.false_eq_true, ↓reduceIte]
    · simp only [hh, exec_bind, exec_lift, hres, hstale, bindCell, exec_modifyCells, exec_pure,
        Bool.false_eq_true, ↓reduceIte]

/-- The cell such an access binds reads what the deeper handle resolves to. -/
theorem access_member_reads {fr : Frame} {m : Machine} {pos b root : Nat} {path : List Accessor}
    {subs : List Subscript} {base o : Operand} {a : Accessor} (hcons : m.cells.Consistent)
    (hh : m.cells.handle? b = some (.var root) ∧ path = [] ∨ m.cells.handle? b = some (.member root path))
    (hb : m.cells.read m.ws b = .ok base) (hacc : accessor base.value subs = .ok (some a))
    (hres : m.ws.resolve (.member root (path ++ [a])) = .ok o)
    (hstale : isStaleList o.value m.ws.dataset = false) :
    ∃ id cells, (access pos b subs).exec fr m = (.ok id, ⟨m.ws, cells⟩) ∧
      cells.read m.ws id = .ok o :=
  ⟨_, _, access_member_exec hh hb hacc hres hstale,
    CellStore.read_of_alias (CellStore.content?_bind_self hcons _ _ _ _) hres⟩

end Walk

namespace Assign

/-- A nested plain write, with no declared type, of a value that is not null and is not a list
naming series the dataset lacks, into a variable whose containers along the path exist, reads back
as a lens: the written place reads the value, both through its handle and through the subscript of
a cell that stands for its container; every path that leaves the written one reads as before; the
containers above keep their keys, and the written one gains the key last if it is new; and the
workspace changes in that variable only. -/
theorem nested_assign_put_get {place : Place} {vid : Nat} {slot inner : Value} {path : List Step}
    {last : Step} {accs : List Accessor} {a : Accessor} {rhs : Operand} {ws ws' : Workspace}
    (hroot : place.root = .var vid) (hsteps : place.steps = path ++ [last])
    (hslot : ws.vars.get? vid = some slot) (hpath : Reaches slot path accs inner)
    (hlast : accessor inner last = .ok (some a)) (hnull : rhs.value.isNull = false)
    (hlist : isStaleList rhs.value ws.dataset = false)
    (hok : (write place .assign rhs .any).exec ws = (.ok (), ws')) :
    ws'.resolve (.member vid (accs ++ [a])) = .ok { value := rhs.value } ∧
    (∀ (fr : Frame) (m : Machine) (pos b : Nat) (base : Operand), m.ws = ws' → m.cells.Consistent →
      (m.cells.handle? b = some (.var vid) ∧ accs = [] ∨ m.cells.handle? b = some (.member vid accs)) →
      m.cells.read ws' b = .ok base →
      ∃ id cells, (Walk.access pos b last.subscripts).exec fr m = (.ok id, ⟨ws', cells⟩) ∧
        cells.read ws' id = .ok { value := rhs.value }) ∧
    (∀ pre c rest b post, accs ++ [a] = pre ++ c :: rest → b ≠ c →
      ws'.resolve (.member vid (pre ++ b :: post)) = ws.resolve (.member vid (pre ++ b :: post))) ∧
    (∀ pre c rest, accs = pre ++ c :: rest →
      (ws'.resolve (.member vid pre)).map (·.value.keys) =
        (ws.resolve (.member vid pre)).map (·.value.keys)) ∧
    (ws'.resolve (.member vid accs)).map (·.value.keys) =
      (ws.resolve (.member vid accs)).map (a.addKey ·.value.keys) ∧
    ∃ v, ws' = { ws with vars := ws.vars.setSlot vid v } := by
  obtain ⟨w, hrun, hacc, hfollow, hframe, hkeys⟩ :=
    write_assign_reaches hroot hsteps hslot hpath hlast hnull (by rw [hok])
  rw [hok] at hrun
  cases hrun
  have hreach := hpath.foldlM
  have hname : (ws.vars.nameOf? vid).isSome := by
    rw [← VarTable.isSome_get?, hslot]
    rfl
  -- the variable now holds the put, every handle into it resolves in the put
  have hres : ∀ l,
      Workspace.resolve { ws with vars := ws.vars.setSlot vid (slot.putAt accs w) } (.member vid l) =
        (l.foldlM Accessor.follow (slot.putAt accs w)).map fun v => { value := v } :=
    Workspace.resolve_member (VarTable.get?_setSlot_self ws.vars (slot.putAt accs w) hname)
  have hinner : accs.foldlM Accessor.follow (slot.putAt accs w) = .ok w :=
    Accessor.foldlM_follow_putAt hreach w
  have hread : Workspace.resolve { ws with vars := ws.vars.setSlot vid (slot.putAt accs w) }
      (.member vid (accs ++ [a])) = .ok { value := rhs.value } := by
    rw [hres, List.foldlM_append, hinner]
    simp only [Except.bind, bind, Accessor.foldlM_follow_cons, hfollow]
    rfl
  refine ⟨hread, ?_, ?_, ?_, ?_, ⟨_, rfl⟩⟩
  · intro fr m pos b base hm hcons hh hb
    obtain ⟨mws, cells⟩ := m
    dsimp only at hm hcons hh hb ⊢
    subst hm
    -- the base cell stands for the written container, which now holds `w`
    have hbase := CellStore.resolve_member_of_read hh hb
    rw [hres, hinner] at hbase
    cases hbase
    exact Walk.access_member_reads hcons hh hb (Walk.accessor_subscripts hacc) hread hlist
  · intro pre c rest b post hsplit hne
    rw [hres, Workspace.resolve_member hslot, Accessor.foldlM_follow_putAt_off hreach hframe hsplit hne]
  · intro pre c rest hsplit
    subst hsplit
    have hcomp : ∀ e : Except EvalError Value,
        (e.map fun v => ({ value := v } : Operand)).map (·.value.keys) = e.map Value.keys := by
      intro e
      cases e <;> rfl
    rw [hres, Workspace.resolve_member hslot, hcomp, hcomp]
    exact Value.keys_putAt_prefix hreach
  · rw [hres, Workspace.resolve_member hslot, hinner, hreach]
    simp only [Except.map]
    rw [hkeys]

/-- `b = {a: {x: 1}}` in a one-observation dataset. -/
def nestedBundleWs : Workspace :=
  { dataset := { nobs := 1, t2 := 0, series := #[{ name := "const", values := #[1] }] },
    vars := ({} : VarTable).push "b" (.bundle [("a", .bundle [("x", .scalar 1)])])
      (VarTable.lookup_empty "b") }

/-- `{a: {x: 1, y: 2}}`. -/
def bayWritten : Value := .bundle [("a", .bundle [("x", .scalar 1), ("y", .scalar 2)])]

/-- The place `b.a.y`. -/
def bayPlace : Place := { root := .var 0, steps := [.key "a", .key "y"], text := "b.a.y" }

/-- `b.a.y = 2` adds the key `y` to the inner bundle and reads back `2`. -/
theorem bay_reads_back :
    Workspace.resolve { nestedBundleWs with vars := nestedBundleWs.vars.setSlot 0 bayWritten }
      (.member 0 [.key "a", .key "y"]) = .ok { value := .scalar 2 } :=
  (nested_assign_put_get (show bayPlace.root = .var 0 from rfl)
    (show bayPlace.steps = [.key "a"] ++ [.key "y"] from rfl)
    (show nestedBundleWs.vars.get? 0 = some (.bundle [("a", .bundle [("x", .scalar 1)])]) from rfl)
    (.cons rfl rfl (.nil (.bundle [("x", .scalar 1)]))) rfl rfl rfl
    (show (write bayPlace .assign { value := .scalar 2 } .any).exec nestedBundleWs =
      (.ok (), { nestedBundleWs with vars := nestedBundleWs.vars.setSlot 0 bayWritten }) from rfl)).1

end Assign

end SeriesCalc
