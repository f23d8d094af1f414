import SeriesCalc.Proofs.Cells.Runs
import SeriesCalc.Proofs.Walk.Effects

/-!
# What evaluating a subtree can change

A statement's cells are reached through the positions of its trees. Evaluating the subtree at
`pos` relinks the positions in it and writes the cells they own; a cell that a position outside
the subtree links to, and that no position inside owns, is at most counted or released, and
reads as it did.

* **Cells** (`CellStore.content?`): a read depends only on a cell's payload and bound kind
  (`read_congr`). `CellStore.Confined S s t` says that going from `s` to `t` changed no link
  outside the positions `S` and the content of no cell held from outside `S` (`HeldOutside`),
  and gave no cell a second owner (`OwnUnique`). It is reflexive, transitive, and grows with
  `S`.
* **Moves**: a cell that a position outside also links to keeps a count when a position inside
  releases it (`two_le_linkCount`); a fresh cell is none of the live ones (`not_live_alloc`); an
  operator writes only the cell of its own position. So each operation at a position of `S` is
  confined to `S` (`Confined.literal`, `bind`, `writable`, `share`, `lend`, `restore`).
* **The walk** (`EvalM.Within fr S x`): every run of `x` from consistent cells is confined to
  `S`. A node stays inside any `S` that holds its position and in which its children stay
  (`Walk.step_within`), so evaluating a position stays inside its subtree (`evalNode_within`, by
  induction on the position).
* **`evalNode_leaves_outside_cells`**: evaluating a position keeps every link outside its
  subtree, and every read of a cell linked from outside that no position of the subtree owns.
  `later_operand_keeps_earlier` reads this for the operands of an operator.
-/

namespace SeriesCalc

namespace CellStore

/-! ## What a read sees -/

/-- What a read of cell `id` sees: what it holds and the kind it was bound to. -/
def content? (s : CellStore) (id : Nat) : Option (Payload × ValueKind) :=
  (s.cell? id).map fun c => (c.payload, c.boundKind)

/-- A read of a cell depends only on its content. -/
theorem read_congr {s t : CellStore} {id : Nat} (h : t.content? id = s.content? id) (ws : Workspace) :
    t.read ws id = s.read ws id := by
  unfold content? at h
  unfold CellStore.read
  cases ht : t.cell? id with
  | none =>
    cases hs : s.cell? id with
    | none => rfl
    | some d => simp [ht, hs] at h
  | some c =>
    cases hs : s.cell? id with
    | none => simp [ht, hs] at h
    | some d =>
      rw [ht, hs] at h
      have hp : c.payload = d.payload := congrArg Prod.fst (Option.some.inj h)
      have hk : c.boundKind = d.boundKind := congrArg Prod.snd (Option.some.inj h)
      dsimp only
      rw [hp, hk]

variable {S : Nat → Prop} {s t u : CellStore}

/-! ## Changes confined to a set of positions -/

/-- No position of `S` owns cell `id`. -/
def Unowned (S : Nat → Prop) (s : CellStore) (id : Nat) : Prop := ∀ p, S p → s.link p ≠ .own id

/-- Cell `id` is held from outside `S`: a position outside `S` links to it, and no position of
`S` owns it. -/
structure HeldOutside (S : Nat → Prop) (s : CellStore) (id : Nat) : Prop where
  linked : ∃ q, ¬ S q ∧ (s.link q).target? = some id
  unowned : s.Unowned S id

/-- No cell has two owners. -/
def OwnUnique (s : CellStore) : Prop := ∀ p q id, s.link p = .own id → s.link q = .own id → p = q

/-- The change from `s` to `t` stays inside the positions `S`: no position outside `S` links
elsewhere, a cell held from outside `S` reads as it did and is still owned by no position of
`S`, and no cell gains a second owner. -/
structure Confined (S : Nat → Prop) (s t : CellStore) : Prop where
  link_eq : ∀ q, ¬ S q → t.link q = s.link q
  held : ∀ id, s.HeldOutside S id → t.content? id = s.content? id ∧ t.Unowned S id
  unique : s.OwnUnique → t.OwnUnique

theorem HeldOutside.live {id : Nat} (h : s.Consistent) (hx : s.HeldOutside S id) : s.Live id :=
  let ⟨q, _, hq⟩ := hx.linked
  h.linked_live q id hq

/-- A cell held from outside `S` is none of the cells that positions of `S` own. -/
theorem HeldOutside.ne_of_own {id pos j : Nat} (hx : s.HeldOutside S id) (hpos : S pos)
    (hown : s.link pos = .own j) : id ≠ j := by
  rintro rfl
  exact hx.unowned pos hpos hown

/-! ## Counts and fresh cells -/

/-- Two positions link to one cell: it counts both. -/
theorem two_le_linkCount {p q id : Nat} (hpq : p ≠ q) (hp : (s.link p).target? = some id)
    (hq : (s.link q).target? = some id) : 2 ≤ s.linkCount id := by
  have hcount := linkCount_setLink (s := s) p .vacant id
  have hq' : ((s.setLink p .vacant).link q).target? = some id := by
    rw [link_setLink, if_neg (Ne.symm hpq)]
    exact hq
  have hrest := linkCount_pos hq'
  rw [hp] at hcount
  simp only [ite_true, Link.target?, reduceCtorEq, ite_false, Nat.add_zero] at hcount
  omega

/-- A new cell is none of the live ones. -/
theorem not_live_alloc (h : s.Consistent) (p : Payload) (r : Role) : ¬ s.Live (s.alloc p r).2 := by
  obtain ⟨-, -, hcases⟩ := alloc_cases (s := s) p r
  unfold Live
  rcases hcases with ⟨hfree, -⟩ | ⟨-, -, hid, -⟩
  · have hvac : s.Vacant (s.alloc p r).2 := (h.mem_free _).mp (by rw [hfree]; exact List.mem_cons_self)
    rw [hvac.cell?]
    simp
  · unfold CellStore.cell?
    rw [hid, Array.getElem?_eq_none (Nat.le_refl _)]
    simp

theorem cell?_alloc_ne {j : Nat} (p : Payload) (r : Role) (hj : j ≠ (s.alloc p r).2) :
    (s.alloc p r).1.cell? j = s.cell? j := by
  obtain ⟨-, -, hcases⟩ := alloc_cases (s := s) p r
  rcases hcases with ⟨-, hcells⟩ | ⟨-, -, hid, hcells⟩
  · unfold CellStore.cell?
    rw [hcells, Array.set!_eq_setIfInBounds, Array.getElem?_setIfInBounds_ne (Ne.symm hj)]
  · rw [cell?_of_push _ hcells, ← hid, if_neg hj]

theorem link_lend (id q : Nat) : (s.lend id).1.link q = s.link q := by
  unfold CellStore.lend
  split
  · exact link_of_links (links_modifyCell _ _) q
  · rfl

theorem link_restore (id : Nat) (v : Value) (q : Nat) : (s.restore id v).link q = s.link q := by
  unfold CellStore.restore
  split
  · rfl
  · dsimp only
    split
    · exact link_of_links (links_modifyCell _ _) q
    · split
      · exact link_of_links (links_modifyCell _ _) q
      · exact link_of_links (links_modifyCell _ _) q

namespace Confined

theorem refl (S : Nat → Prop) (s : CellStore) : Confined S s s :=
  ⟨fun _ _ => rfl, fun _ hx => ⟨rfl, hx.unowned⟩, fun hu => hu⟩

/-- A cell held from outside `S` is still held from outside after a confined change. -/
theorem heldOutside {id : Nat} (h : Confined S s t) (hx : s.HeldOutside S id) : t.HeldOutside S id :=
  let ⟨q, hq, hl⟩ := hx.linked
  ⟨⟨q, hq, by rw [h.link_eq q hq]; exact hl⟩, (h.held id hx).2⟩

theorem trans (h₁ : Confined S s t) (h₂ : Confined S t u) : Confined S s u := by
  refine ⟨fun q hq => by rw [h₂.link_eq q hq, h₁.link_eq q hq], fun id hx => ?_,
    fun hu => h₂.unique (h₁.unique hu)⟩
  obtain ⟨hc₁, -⟩ := h₁.held id hx
  obtain ⟨hc₂, hu⟩ := h₂.held id (h₁.heldOutside hx)
  exact ⟨hc₂.trans hc₁, hu⟩

/-- A change confined to `S` is confined to every larger set. -/
theorem mono {S' : Nat → Prop} (h : Confined S s t) (hS : ∀ p, S p → S' p) : Confined S' s t := by
  refine ⟨fun q hq => h.link_eq q fun hs => hq (hS q hs), fun id hx => ?_, h.unique⟩
  obtain ⟨q, hq, hl⟩ := hx.linked
  have hx' : s.HeldOutside S id :=
    ⟨⟨q, fun hs => hq (hS q hs), hl⟩, fun p hp => hx.unowned p (hS p hp)⟩
  obtain ⟨hc, hu⟩ := h.held id hx'
  refine ⟨hc, fun p hp => ?_⟩
  by_cases hpS : S p
  · exact hu p hpS
  · rw [h.link_eq p hpS]
    exact hx.unowned p hp

/-- A change that keeps every link and the content of every cell held from outside. -/
theorem of_links (hl : t.links = s.links) (hc : ∀ id, s.HeldOutside S id → t.content? id = s.content? id) :
    Confined S s t :=
  ⟨fun q _ => link_of_links hl q, fun id hx =>
    ⟨hc id hx, fun p hp => by rw [link_of_links hl]; exact hx.unowned p hp⟩,
    fun hu p q id hp hq => by
      rw [link_of_links hl] at hp hq
      exact hu p q id hp hq⟩

/-- A change to one cell, owned by a position of `S`. -/
theorem of_own {pos id : Nat} (hpos : S pos) (hown : s.link pos = .own id) (hl : t.links = s.links)
    (hc : ∀ j, j ≠ id → t.cell? j = s.cell? j) : Confined S s t :=
  of_links hl fun j hx => by
    unfold content?
    rw [hc j (hx.ne_of_own hpos hown)]

/-- A position of `S` linked anew, to anything but a cell held from outside or owned by another
position. -/
theorem setLink {pos : Nat} {l : Link} (hpos : S pos) (hl : ∀ id, s.HeldOutside S id → l ≠ .own id)
    (hu : ∀ id, l = .own id → ∀ q, q ≠ pos → s.link q ≠ .own id) :
    Confined S s (s.setLink pos l) := by
  have hne : ∀ q, ¬ S q → q ≠ pos := fun q hq h => hq (h ▸ hpos)
  refine ⟨fun q hq => by rw [link_setLink, if_neg (hne q hq)], fun id hx => ⟨rfl, fun p hp => ?_⟩,
    fun hs p q id hp hq => ?_⟩
  · rw [link_setLink]
    split
    · exact hl id hx
    · exact hx.unowned p hp
  · -- only `pos` links anew, and to no cell another position owns
    rw [link_setLink] at hp hq
    by_cases hpp : p = pos <;> by_cases hqp : q = pos
    · rw [hpp, hqp]
    · rw [if_pos hpp] at hp
      rw [if_neg hqp] at hq
      exact absurd hq (hu id hp q hqp)
    · rw [if_neg hpp] at hp
      rw [if_pos hqp] at hq
      exact absurd hp (hu id hq p hpp)
    · rw [if_neg hpp] at hp
      rw [if_neg hqp] at hq
      exact hs p q id hp hq

/-- Releasing the cell a position of `S` links to: a cell held from outside as well has another
link, so it only loses a count. -/
theorem release (h : s.Consistent) {pos j : Nat} (hpos : S pos) (hl : (s.link pos).target? = some j) :
    Confined S s (s.release j) := by
  refine of_links (links_release j) fun id hx => ?_
  by_cases hid : id = j
  · subst hid
    obtain ⟨q, hq, hql⟩ := hx.linked
    obtain ⟨c, hc⟩ := Option.isSome_iff_exists.mp (hx.live h)
    -- linked from `pos` and from outside, the cell counts two links and is kept
    have h2 : 2 ≤ c.refs := by
      rw [h.refs_eq id c hc]
      exact two_le_linkCount (fun e : pos = q => hq (e ▸ hpos)) hl hql
    rcases release_of_cell? hc with ⟨hr, -⟩ | ⟨-, hcells, -⟩
    · omega
    · unfold content?
      rw [cell?_of_set _ hcells (lt_size_of_cell? hc), if_pos rfl, hc]
      rfl
  · unfold content?
    rw [cell?_release_ne hid]

theorem unlink (h : s.Consistent) {pos : Nat} (hpos : S pos) : Confined S s (s.unlink pos) := by
  rcases hl : (s.link pos).target? with _ | j
  · rw [unlink_of_vacant (Link.eq_vacant_of_target? hl)]
    exact setLink hpos (fun _ _ h => by cases h) fun _ h => by cases h
  · rw [unlink_of_target hl]
    exact (release h hpos hl).trans (setLink hpos (fun _ _ h => by cases h) fun _ h => by cases h)

/-! ### The operations at a position of `S` -/

/-- A change to the count of a cell, or to anything a read does not see. -/
theorem modifyCell_content {id : Nat} {f : Cell → Cell}
    (hf : ∀ c, (f c).payload = c.payload ∧ (f c).boundKind = c.boundKind) :
    Confined S s (s.modifyCell id f) :=
  of_links (links_modifyCell id f) fun j _ => by
    unfold content?
    rw [cell?_modifyCell]
    split
    · subst_vars
      cases s.cell? j with
      | none => rfl
      | some c => simp only [Option.map_some, hf c]
    · rfl

/-- A change to the cell a position of `S` owns. -/
theorem modifyCell_own {pos id : Nat} (hpos : S pos) (hown : s.link pos = .own id) (f : Cell → Cell) :
    Confined S s (s.modifyCell id f) :=
  of_own hpos hown (links_modifyCell id f) fun j hj => by rw [cell?_modifyCell, if_neg hj]

/-- A fresh cell linked from a position of `S`: it is none of the cells held from outside, which
are live. -/
theorem alloc_setLink (h : s.Consistent) {pos : Nat} (hpos : S pos) (p : Payload) (r : Role) :
    Confined S s ((s.alloc p r).1.setLink pos (.own (s.alloc p r).2)) := by
  have halloc : Confined S s (s.alloc p r).1 :=
    of_links (links_alloc p r) fun id hx => by
      unfold content?
      rw [cell?_alloc_ne p r fun he => not_live_alloc h p r (he ▸ hx.live h)]
  -- the fresh cell is not in use, so no position links to it
  refine halloc.trans (setLink hpos (fun id hx heq => ?_) fun id heq q _ hq => ?_)
  · obtain ⟨q, -, hq⟩ := hx.linked
    rw [link_of_links (links_alloc p r), ← Link.own.inj heq] at hq
    exact not_live_alloc h p r (h.linked_live q _ hq)
  · rw [link_of_links (links_alloc p r), ← Link.own.inj heq] at hq
    exact not_live_alloc h p r (h.linked_live q _ (by rw [hq]; rfl))

theorem literal (h : s.Consistent) {pos : Nat} (hpos : S pos) (v : Value) :
    Confined S s (s.literal pos v).1 := by
  unfold CellStore.literal
  dsimp only
  split
  · exact refl S s
  · exact (unlink h hpos).trans (alloc_setLink (h.unlink pos) hpos _ _)

theorem bind (h : s.Consistent) {pos : Nat} (hpos : S pos) (hd : Handle) (k : ValueKind) (r : Role) :
    Confined S s (s.bind pos hd k r).1 := by
  unfold CellStore.bind
  dsimp only
  split
  · rename_i id hk
    -- the position's own cell is bound again
    have hown : s.link pos = .own id := by
      split at hk
      · split at hk
        · cases hk
          assumption
        · cases hk
      · cases hk
    exact modifyCell_own hpos hown _
  · rw [setLink_modifyCell]
    dsimp only
    refine (unlink h hpos).trans ((alloc_setLink (h.unlink pos) hpos (.alias hd) r).trans ?_)
    exact modifyCell_own hpos (by rw [link_setLink, if_pos rfl]) _

theorem writable (h : s.Consistent) {pos : Nat} (hpos : S pos) : Confined S s (s.writable pos).1 := by
  unfold CellStore.writable
  dsimp only
  split
  · rename_i id hl
    split
    · split
      · exact modifyCell_own hpos hl _
      · exact refl S s
    · exact alloc_setLink h hpos _ _
  · rename_i old hl
    -- the shared cell is released and a fresh one linked, as `unlink` then `alloc` would
    have ht : (s.link pos).target? = some old := by rw [hl]; rfl
    have hu : Confined S s (s.unlink pos) := unlink h hpos
    rw [unlink_of_target ht] at hu
    have ha := alloc_setLink (h.release_setLink ht) hpos (.owned .null) .result
    rw [alloc_setLink_comm, setLink_setLink] at ha
    exact hu.trans ha
  · exact alloc_setLink h hpos _ _

/-- Sharing a cell: it gains a count, and the position's old cell is released. -/
theorem share (h : s.Consistent) {pos : Nat} (hpos : S pos) (target : Nat) :
    Confined S s (s.share pos target) := by
  have hcount : ∀ s' : CellStore, Confined S s' (s'.modifyCell target fun c => { c with refs := c.refs + 1 }) :=
    fun _ => modifyCell_content fun _ => ⟨rfl, rfl⟩
  have hshare : ∀ s' : CellStore, Confined S s' (s'.setLink pos (.shared target)) :=
    fun _ => setLink hpos (fun _ _ h => by cases h) fun _ h => by cases h
  unfold CellStore.share
  split
  · exact refl S s
  · dsimp only
    have hlinks := links_modifyCell (s := s) target fun c => { c with refs := c.refs + 1 }
    rcases hl : (s.link pos).target? with _ | old
    · have hv : s.link pos = .vacant := Link.eq_vacant_of_target? hl
      rw [unlink_of_vacant (by rw [link_of_links hlinks]; exact hv), setLink_setLink]
      exact (hcount s).trans (hshare _)
    · rw [unlink_of_target (by rw [link_of_links hlinks]; exact hl), setLink_setLink]
      by_cases ho : old = target
      · -- the position held the target itself: the added count is released again
        subst ho
        obtain ⟨c, hc⟩ := Option.isSome_iff_exists.mp (h.linked_live pos old hl)
        rw [release_modifyCell_succ hc (by rw [h.refs_eq _ c hc]; exact linkCount_pos hl)]
        exact hshare s
      · rw [release_modifyCell (Ne.symm ho)]
        exact (release h hpos hl).trans ((hcount _).trans (hshare _))

theorem lend {pos id : Nat} (hpos : S pos) (hown : s.link pos = .own id) : Confined S s (s.lend id).1 := by
  unfold CellStore.lend
  split
  · exact modifyCell_own hpos hown _
  · exact refl S s

theorem restore {pos id : Nat} (hpos : S pos) (hown : s.link pos = .own id) (v : Value) :
    Confined S s (s.restore id v) := by
  unfold CellStore.restore
  split
  · exact refl S s
  · dsimp only
    have hm := modifyCell_own hpos hown fun c => { c with lastKind := v.kind, payload := .owned v }
    -- the counters of reuse change, nothing a read sees
    split
    · exact hm
    · split
      · exact hm.trans (of_links rfl fun _ _ => rfl)
      · exact hm.trans (of_links rfl fun _ _ => rfl)

/-- What an operator does to the cells: the position's own cell, lent to it and given back. -/
theorem compute (h : s.Consistent) {pos : Nat} (hpos : S pos) (v : Value) :
    Confined S s (((s.writable pos).1.lend (s.writable pos).2).1.restore (s.writable pos).2 v) := by
  have hown := link_writable (s := s) pos
  exact (writable h hpos).trans ((lend hpos hown).trans (restore hpos (by rw [link_lend]; exact hown) v))

end Confined

end CellStore

namespace EvalM

/-! ## Walk steps confined to a set of positions -/

/-- Every run of `x` in `fr` from consistent cells changes them only inside the positions `S`
(`CellStore.Confined`), whether it returns or fails. -/
def Within {α : Type} (fr : Frame) (S : Nat → Prop) (x : EvalM α) : Prop :=
  ∀ m, m.cells.Consistent → CellStore.Confined S m.cells (x.exec fr m).2.cells

namespace Within

variable {α β : Type} {fr : Frame} {S : Nat → Prop} {x : EvalM α} {f : α → EvalM β}
  {R : α → CellStore → Prop}

/-- A step that keeps the cells changes nothing. -/
theorem of_cells (h : KeepsCells fr x) : Within fr S x := fun m _ => by
  rw [h m]
  exact CellStore.Confined.refl S m.cells

theorem mono {S' : Nat → Prop} (h : Within fr S x) (hS : ∀ p, S p → S' p) : Within fr S' x :=
  fun m hm => (h m hm).mono hS

protected theorem pure (a : α) : Within fr S (pure a) := of_cells (KeepsCells.pure a)

protected theorem throw (e : EvalError) : Within fr S (throw e : EvalM α) := of_cells (KeepsCells.throw e)

theorem fail (e : Fault) : Within fr S (EvalM.fail e : EvalM α) := of_cells (KeepsCells.fail e)

/-- A step after `read` sees the frame itself. -/
theorem read_bind {f : Frame → EvalM β} (h : Within fr S (f fr)) : Within fr S (read >>= f) :=
  fun m hm => by
    rw [exec_bind]
    exact h m hm

/-- A step, then another from the cells it leaves: they are consistent (`hx`), so the second
stays inside `S` as well. -/
protected theorem bind (hw : Within fr S x) (hx : Tidy fr (fun _ => True) x R)
    (hf : ∀ a, Within fr S (f a)) : Within fr S (x >>= f) := by
  intro m hm
  rw [exec_bind]
  have hc := (hx m hm trivial).1
  cases (x.exec fr m).1 with
  | ok a => exact (hw m hm).trans (hf a _ hc)
  | error e => exact hw m hm

protected theorem ite {c : Prop} [Decidable c] {y : EvalM α} (hx : Within fr S x) (hy : Within fr S y) :
    Within fr S (if c then x else y) := by
  split
  · exact hx
  · exact hy

protected theorem tryCatch {h : EvalError → EvalM α} (hw : Within fr S x)
    (hx : Tidy fr (fun _ => True) x R) (hh : ∀ e, Within fr S (h e)) : Within fr S (tryCatch x h) := by
  intro m hm
  rw [exec_tryCatch]
  have hc := (hx m hm trivial).1
  cases (x.exec fr m).1 with
  | ok a => exact hw m hm
  | error e => exact (hw m hm).trans (hh e _ hc)

theorem attempt (hw : Within fr S x) (hx : Tidy fr (fun _ => True) x R) :
    Within fr S (Walk.attempt x) := by
  unfold Walk.attempt
  refine Within.tryCatch ?_ (hx.map _) fun e => ?_
  · rw [map_eq_pure_bind]
    exact hw.bind hx fun _ => Within.pure _
  · split
    · exact Within.throw _
    · exact Within.pure _

protected theorem mapM : ∀ (l : List α),
    (∀ a ∈ l, Within fr S (f a) ∧ Tidy fr (fun _ => True) (f a) fun _ _ => True) →
      Within fr S (l.mapM f)
  | [], _ => Within.pure _
  | a :: l, h => by
    rw [List.mapM_cons]
    have ht : ∀ b ∈ l, Tidy fr (fun _ => True) (f b) fun _ _ => True :=
      fun b hb => (h b (List.mem_cons_of_mem _ hb)).2
    exact (h a List.mem_cons_self).1.bind (h a List.mem_cons_self).2 fun _ =>
      (Within.mapM l fun b hb => h b (List.mem_cons_of_mem _ hb)).bind (Tidy.mapM l ht) fun _ =>
        Within.pure _

/-! ### Cell operations at a position of `S` -/

variable {pos : Nat}

theorem literal (hpos : S pos) (v : Value) : Within fr S (EvalM.literal pos v) := fun m hm => by
  rw [EvalM.literal, exec_modifyCells]
  exact CellStore.Confined.literal hm hpos v

theorem bindCell (hpos : S pos) (hd : Handle) (k : ValueKind) (r : Role) :
    Within fr S (EvalM.bindCell pos hd k r) := fun m hm => by
  rw [EvalM.bindCell, exec_modifyCells]
  exact CellStore.Confined.bind hm hpos hd k r

theorem share (hpos : S pos) (target : Nat) : Within fr S (EvalM.share pos target) := fun m hm => by
  rw [EvalM.share, exec_modifyCells]
  exact CellStore.Confined.share hm hpos target

/-- An operator writes into the position's own cell, which no cell held from outside is. -/
theorem compute (hpos : S pos) (op : OpEnv → OpM Unit) : Within fr S (EvalM.compute pos op) := by
  intro m hm
  obtain ⟨v, hcells, -⟩ := compute_cells fr m pos op
  rw [hcells]
  exact CellStore.Confined.compute hm hpos v

end Within

/-- A step that keeps the cells, then one that stays inside `S`. -/
theorem KeepsCells.bind_within {α β : Type} {fr : Frame} {S : Nat → Prop} {x : EvalM α}
    {f : α → EvalM β} (hx : KeepsCells fr x) (hf : ∀ a, Within fr S (f a)) : Within fr S (x >>= f) :=
  (Within.of_cells hx).bind (Tidy.of_cells (P := fun _ => True) hx) hf

end EvalM

namespace Walk

open EvalM

/-! ### One node

Each node's lemma assumes that evaluating a child keeps the cells consistent (`ht`) and stays
inside `S`, and that the node's own position is in `S` (`hpos`). -/

variable {fr : Frame} {S : Nat → Prop} {child : Nat → EvalM Nat} {pos : Nat}

theorem ident_within (hpos : S pos) (name : String) : Within fr S (ident pos name) := by
  unfold ident
  refine KeepsCells.workspace.bind_within fun ws => ?_
  split
  · exact Within.bindCell hpos _ _ _
  · split
    · exact Within.bindCell hpos _ _ _
    · exact Within.fail _

theorem logical_within (ht : ∀ c, LiveCell fr (child c)) (hpos : S pos) {op : BinaryOp} {l r : Nat}
    (hl : Within fr S (child l)) (hr : Within fr S (child r)) :
    Within fr S (logical child pos op l r) := by
  unfold logical
  refine hl.bind (ht l) fun a => (KeepsCells.operand a).bind_within fun o => ?_
  dsimp only
  split
  · split
    · exact Within.share hpos _
    · exact Within.compute hpos _
  · exact hr.bind (ht r) fun _ => Within.compute hpos _

theorem seriesConditional_within (ht : ∀ c, LiveCell fr (child c)) (hpos : S pos) {c : Nat}
    {sample : Array Float} {thenB elseB : Nat} (ha : Within fr S (child thenB))
    (hb : Within fr S (child elseB)) :
    Within fr S (seriesConditional child pos c sample thenB elseB) := by
  unfold seriesConditional
  refine KeepsCells.workspace.bind_within fun ws => ?_
  dsimp only
  split
  · exact Within.compute hpos _
  · exact ha.bind (ht thenB) fun _ => (KeepsCells.operand _).bind_within fun _ =>
      Within.ite (Within.share hpos _) (Within.ite (Within.compute hpos _) (Within.compute hpos _))
  · exact hb.bind (ht elseB) fun _ => (KeepsCells.operand _).bind_within fun _ =>
      Within.ite (Within.share hpos _) (Within.ite (Within.compute hpos _) (Within.compute hpos _))
  · exact ha.bind (ht thenB) fun _ => hb.bind (ht elseB) fun _ => Within.compute hpos _

theorem conditional_within (ht : ∀ c, LiveCell fr (child c)) (hpos : S pos) {cond thenB elseB : Nat}
    (hc : Within fr S (child cond)) (ha : Within fr S (child thenB)) (hb : Within fr S (child elseB)) :
    Within fr S (conditional child pos cond thenB elseB) := by
  unfold conditional
  refine hc.bind (ht cond) fun c => (KeepsCells.operand c).bind_within fun o => ?_
  split
  · split
    · exact ha.bind (ht thenB) fun _ => Within.share hpos _
    · exact hb.bind (ht elseB) fun _ => Within.share hpos _
    · exact Within.compute hpos _
  · split
    · exact KeepsCells.workspace.bind_within fun _ => (KeepsCells.lift _).bind_within fun _ =>
        seriesConditional_within ht hpos ha hb
    · exact ha.bind (ht thenB) fun _ => hb.bind (ht elseB) fun _ => Within.compute hpos _
    · exact Within.fail _

/-- Elements evaluated one after another. -/
theorem children_within (ht : ∀ c, LiveCell fr (child c)) {cs : List Nat}
    (h : ∀ c ∈ cs, Within fr S (child c)) : Within fr S (cs.mapM child) :=
  Within.mapM cs fun c hc => ⟨h c hc, (ht c).forget⟩

theorem matrixLiteral_within (ht : ∀ c, LiveCell fr (child c)) (hpos : S pos) {rows : Children}
    (h : ∀ row ∈ fr.forest.list rows, ∀ elems, fr.forest.node? row = some (.matrixRow elems) →
      ∀ c ∈ fr.forest.list elems, Within fr S (child c)) :
    Within fr S (matrixLiteral child pos rows) := by
  unfold matrixLiteral
  refine Within.read_bind ((Within.mapM _ fun row hrow => ⟨?_, ?_⟩).bind
    (Tidy.mapM _ fun row _ => ?_) fun _ => Within.compute hpos _)
  · split
    · rename_i elems hrow'
      exact children_within ht (h row hrow elems hrow')
    · exact Within.throw _
  -- each row keeps the cells consistent: as an element of the run, and for the step after it
  all_goals
    split
    · exact children_tidy ht _
    · exact Tidy.throw _

theorem listLiteral_within (ht : ∀ c, LiveCell fr (child c)) (hpos : S pos) {elems : Children}
    (h : ∀ c ∈ fr.forest.list elems, Within fr S (child c)) :
    Within fr S (listLiteral child pos elems) := by
  unfold listLiteral
  exact Within.read_bind ((children_within ht h).bind (children_tidy ht _) fun _ => Within.compute hpos _)

theorem arrayLiteral_within (ht : ∀ c, LiveCell fr (child c)) (hpos : S pos) {elems : Children}
    (h : ∀ c ∈ fr.forest.list elems, Within fr S (child c)) :
    Within fr S (arrayLiteral child pos elems) := by
  unfold arrayLiteral
  exact Within.read_bind ((children_within ht h).bind (children_tidy ht _) fun _ => Within.compute hpos _)

theorem bundleLiteral_within (ht : ∀ c, LiveCell fr (child c)) (hpos : S pos) {pairs : Children}
    (h : ∀ c ∈ fr.forest.list pairs, Within fr S (child c)) :
    Within fr S (bundleLiteral child pos pairs) := by
  unfold bundleLiteral
  refine Within.read_bind ((Within.mapM _ fun chunk hchunk => ⟨?_, ?_⟩).bind
    (Tidy.mapM _ fun chunk _ => ?_) fun _ => Within.compute hpos _)
  · split
    · rename_i key value
      have hv : value ∈ fr.forest.list pairs :=
        Forest.mem_of_mem_chunksOfTwo hchunk value (by simp)
      split
      · exact (h value hv).bind (ht value) fun _ => Within.pure _
      · exact Within.throw _
    · exact Within.throw _
  -- each pair keeps the cells consistent: as an element of the run, and for the step after it
  all_goals
    split
    · split
      · exact (ht _).bind fun _ => (Tidy.pure _).forget
      · exact Tidy.throw _
    · exact Tidy.throw _

/-- An evaluated subscript is read and classified; nothing of it is written. -/
theorem subscriptValue_keepsCells (id : Nat) : KeepsCells fr (do
    let o ← operand id
    if o.isScalarLike then pure (.num (o.scalar?.getD NA))
    else match o.value with
      | .str s => pure (.str s)
      | .matrix m => pure (.matrix m)
      | _ => fail (.typeMismatch "index" o.kind) : EvalM Subscript) :=
  (KeepsCells.operand id).bind fun o => by
    split
    · exact KeepsCells.pure _
    · split
      · exact KeepsCells.pure _
      · exact KeepsCells.pure _
      · exact KeepsCells.fail _

theorem subscripts_within (ht : ∀ c, LiveCell fr (child c)) {args : List Nat}
    (h : ∀ a ∈ args, Within fr S (child a) ∧
      ∀ lo hi, fr.forest.node? a = some (.range lo hi) → Within fr S (child lo) ∧ Within fr S (child hi)) :
    Within fr S (subscripts child args) := by
  unfold subscripts
  refine Within.read_bind (Within.mapM _ fun a ha => ⟨?_, ?_⟩)
  · split
    · exact Within.pure _
    · exact Within.pure _
    · rename_i lo hi hr
      obtain ⟨hlo, hhi⟩ := (h a ha).2 lo hi hr
      -- once evaluated, the bounds are only read
      exact hlo.bind (ht lo) fun _ => hhi.bind (ht hi) fun _ => Within.of_cells
        ((rangeBound_keepsCells _).bind fun _ => (rangeBound_keepsCells _).bind fun _ => KeepsCells.pure _)
    · exact (h a ha).1.bind (ht a) fun id => Within.of_cells (subscriptValue_keepsCells id)
  · split
    · exact Tidy.pure _
    · exact Tidy.pure _
    · exact (ht _).forget.bind fun _ => (ht _).forget.bind fun _ => Tidy.of_cells
        ((rangeBound_keepsCells _).bind fun _ => (rangeBound_keepsCells _).bind fun _ => KeepsCells.pure _)
    · exact (ht a).forget.bind fun id => Tidy.of_cells (subscriptValue_keepsCells id)

/-- The subscripts of an index node, and the bounds of their ranges, lie below it. -/
theorem index_subscripts_within (ht : ∀ c, LiveCell fr (child c)) {base : Nat} {args : Children}
    (hn : fr.forest.node? pos = some (.index base args))
    (hchild : ∀ c, fr.forest.Below pos c → Within fr S (child c)) :
    Within fr S (subscripts child (fr.forest.list args)) := by
  have below : ∀ a ∈ fr.forest.list args, fr.forest.Below pos a := fun a ha =>
    Forest.Below.kid hn (by simp [Node.kids, ha])
  -- a range subscript evaluates its bounds, two links below the index
  refine subscripts_within ht fun a ha => ⟨hchild a (below a ha), fun lo hi hr => ⟨?_, ?_⟩⟩
  · exact hchild lo ((below a ha).trans (Forest.Below.kid hr (by simp [Node.kids])))
  · exact hchild hi ((below a ha).trans (Forest.Below.kid hr (by simp [Node.kids])))

/-- Every way through a member lookup ends in the same join: the bound cell, or a cell computed
into the position. -/
theorem accessJoin_within (hpos : S pos) (b : Nat) (subs : List Subscript) (bound? : Option Nat) :
    Within fr S (match bound? with
      | some id => pure id
      | none => compute pos fun env => do
        let base ← OpM.read env b
        OpM.put (← OpM.lift (indexValue base.value subs env.ds))) := by
  split
  · exact Within.pure _
  · exact Within.compute hpos _

theorem access_within (hpos : S pos) (b : Nat) (subs : List Subscript) :
    Within fr S (access pos b subs) := by
  unfold access
  refine (KeepsCells.operand b).bind_within fun base => ?_
  split
  · exact (KeepsCells.lift _).bind_within fun _ => Within.bindCell hpos _ _ _
  · refine (KeepsCells.lift _).bind_within fun _ => KeepsCells.get.bind_within fun m => ?_
    dsimp only
    split
    · refine (KeepsCells.lift _).bind_within fun _ => Within.ite ?_ ?_
      · exact (KeepsCells.pure _).bind_within fun _ => accessJoin_within hpos b _ _
      · exact (Within.bindCell hpos _ _ _).bind (Tidy.bindCell _ _ _ _) fun _ =>
          (KeepsCells.pure _).bind_within fun _ => accessJoin_within hpos b _ _
    · exact (KeepsCells.pure _).bind_within fun _ => accessJoin_within hpos b _ _

theorem lag_within (ht : ∀ c, LiveCell fr (child c)) (hpos : S pos) {base k : Nat}
    (hb : Within fr S (child base)) (hk : Within fr S (child k)) :
    Within fr S (lag child pos base k) := by
  unfold lag
  refine hb.bind (ht base) fun _ => hk.bind (ht k) fun _ =>
    (KeepsCells.operand _).bind_within fun ko => ?_
  dsimp only
  split
  · exact Within.ite ((KeepsCells.pure _).bind_within fun _ => Within.compute hpos _)
      ((KeepsCells.fail _).bind_within fun _ => Within.compute hpos _)
  · exact (KeepsCells.fail _).bind_within fun _ => Within.compute hpos _

/-! ### Calls -/

theorem bindArgs_within (ht : ∀ c, LiveCell fr (child c)) (ps : List (Param × Nat))
    (locals : VarTable) (lent : List (String × Lent)) (h : ∀ pn ∈ ps, Within fr S (child pn.2)) :
    Within fr S (bindArgs child ps locals lent) := by
  -- binding is tidy as well, which is what lets each bind carry `Within` to the next step
  refine (bindArgs_closed
    (K := fun x => Within fr S x ∧ Tidy fr (fun _ => True) x fun _ _ => True)
    (fun a => ⟨Within.pure a, Tidy.pure a⟩)
    (fun hx hf => ⟨hx.1.bind hx.2 fun a => (hf a).1, hx.2.bind fun a => (hf a).2⟩)
    (fun p node => ⟨Within.of_cells (borrow_keepsCells p node).attempt,
      (Tidy.of_cells (borrow_keepsCells p node)).attempt⟩) ps (fun pn hpn => ?_) locals lent).1
  -- a value argument is evaluated, its cells confined as the argument's
  have hconv : Tidy fr (fun _ => True) (do converted (← child pn.2) pn.1.declared) fun _ _ => True :=
    (ht pn.2).forget.bind fun c => Tidy.of_cells (converted_keepsCells c pn.1.declared)
  have hw : Within fr S (do converted (← child pn.2) pn.1.declared) :=
    (h pn hpn).bind (ht pn.2) fun c => Within.of_cells (converted_keepsCells c pn.1.declared)
  exact ⟨Within.attempt hw hconv, hconv.attempt⟩

/-- A user function's body runs against cells of its own: of the caller's, a call touches only
those of its argument positions. -/
theorem invoke_within (ht : ∀ c, LiveCell fr (child c)) {fn : UserFunction} {args : List Nat}
    (h : ∀ c ∈ args, Within fr S (child c)) : Within fr S (invoke child fn args) := by
  unfold invoke
  split
  · exact Within.pure _
  refine (bindArgs_within ht _ _ _ fun pn hpn => h pn.2 (List.of_mem_zip hpn).2).bind
    (bindArgs_tidy ht _ _ _) fun b => ?_
  obtain ⟨locals, lent, failure⟩ := b
  exact Within.of_cells (body_keepsCells fn locals lent failure)

theorem call_within (ht : ∀ c, LiveCell fr (child c)) (hpos : S pos) {name : String}
    {args : List Nat} (h : ∀ c ∈ args, Within fr S (child c)) :
    Within fr S (call child pos name args) := by
  unfold call
  refine KeepsCells.workspace.bind_within fun ws => ?_
  split
  · exact (children_within ht h).bind (children_tidy ht _) fun _ => Within.compute hpos _
  · refine Within.ite (Within.fail _) (Within.ite (Within.fail _) ?_)
    split
    · exact Within.fail _
    · refine (KeepsCells.modifyWorkspace _).bind_within fun _ =>
        (invoke_within ht h).bind (invoke_tidy ht _ _) fun r => ?_
      refine (KeepsCells.modifyWorkspace _).bind_within fun _ => ?_
      split
      · exact Within.throw _
      · exact Within.compute hpos _

/-- One node: its own cell operations are at its position, and the rest is done by its
children. -/
theorem step_within (ht : ∀ c, LiveCell fr (child c)) (hpos : S pos)
    (hchild : ∀ c, fr.forest.Below pos c → Within fr S (child c)) :
    Within fr S (step child pos) := by
  unfold step
  refine Within.read_bind ?_
  dsimp only
  split
  · exact Within.throw _
  · rename_i n hn
    have kid : ∀ c ∈ n.kids fr.forest, Within fr S (child c) := fun c hc =>
      hchild c (Forest.Below.kid hn hc)
    cases n with
    | num x => exact Within.literal hpos _
    | str s => exact Within.literal hpos _
    | null => exact Within.literal hpos _
    | ident name => exact ident_within hpos _
    | selector d => exact Within.fail _
    | all => exact Within.fail _
    | unary op x => exact (kid x (by simp [Node.kids])).bind (ht x) fun _ => Within.compute hpos _
    | binary op l r =>
      have hl := kid l (by simp [Node.kids])
      have hr := kid r (by simp [Node.kids])
      exact Within.ite (logical_within ht hpos hl hr)
        (hl.bind (ht l) fun _ => hr.bind (ht r) fun _ => Within.compute hpos _)
    | ternary c a b =>
      exact conditional_within ht hpos (kid c (by simp [Node.kids])) (kid a (by simp [Node.kids]))
        (kid b (by simp [Node.kids]))
    | call fn args => exact call_within ht hpos kid
    | matrixLit rows =>
      refine matrixLiteral_within ht hpos fun row hrow elems hrow' c hc => hchild c ?_
      exact (Forest.Below.kid hn hrow).trans (Forest.Below.kid hrow' hc)
    | matrixRow elems => exact Within.fail _
    | listLit elems => exact listLiteral_within ht hpos kid
    | bundleLit pairs => exact bundleLiteral_within ht hpos kid
    | arrayLit elems => exact arrayLiteral_within ht hpos kid
    | index base args =>
      exact (kid base (by simp [Node.kids])).bind (ht base) fun _ =>
        (index_subscripts_within ht hn hchild).bind (subscripts_tidy ht _) fun _ => access_within hpos _ _
    | member base key =>
      refine (kid base (by simp [Node.kids])).bind (ht base) fun _ =>
        (KeepsCells.operand _).bind_within fun o => ?_
      split
      · exact Within.fail _
      · exact Within.fail _
      · exact Within.fail _
      · exact access_within hpos _ _
    | range lo hi => exact Within.fail _
    | lag base k => exact lag_within ht hpos (kid base (by simp [Node.kids])) (kid k (by simp [Node.kids]))
    | ref x => exact Within.fail _

end Walk

/-- Evaluating a position changes the cells only inside its subtree. -/
theorem evalNode_within {fr : Frame} : ∀ pos, EvalM.Within fr (fr.forest.Below pos) (evalNode pos) := by
  intro pos
  induction pos using Nat.strongRecOn with
  | ind pos ih =>
    rw [evalNode]
    have ht : ∀ c, EvalM.LiveCell fr (if c < pos then evalNode c else throw Walk.malformed) := by
      intro c
      split
      · exact evalNode_tidy c
      · exact EvalM.Tidy.throw _
    refine Walk.step_within ht (Forest.Below.refl _ _) fun c hc => ?_
    split
    · exact (ih c ‹_›).mono fun p hp => hc.trans hp
    · exact EvalM.Within.throw _

/-- **Evaluating a subtree touches nothing outside it.** From consistent cells, evaluating the
position `pos` leaves every position outside its subtree linked as it was, and every cell that
such a position links to, and that no position of the subtree owns, reads as it did. -/
theorem evalNode_leaves_outside_cells (fr : Frame) (pos : Nat) (m : Machine) (hm : m.cells.Consistent) :
    (∀ q, ¬ fr.forest.Below pos q → ((evalNode pos).exec fr m).2.cells.link q = m.cells.link q) ∧
      ∀ id, m.cells.HeldOutside (fr.forest.Below pos) id → ∀ ws,
        ((evalNode pos).exec fr m).2.cells.read ws id = m.cells.read ws id := by
  have hw : EvalM.Within fr (fr.forest.Below pos) (evalNode pos) := evalNode_within pos
  have h := hw m hm
  exact ⟨h.link_eq, fun id hx ws => CellStore.read_congr (h.held id hx).1 ws⟩

end SeriesCalc
