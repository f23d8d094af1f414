import SeriesCalc.Eval.Cells

/-!
# The bookkeeping of a cell store

A statement's cells are numbered; positions link to them, and a cell counts its links in
`refs`. Freed numbers wait in the free list to be used again, the last freed first, and the
counters record how many cells were made and how many thrown away.

`CellStore.Consistent` is what keeps this sound:

* every link names a live cell (`linked_live`);
* every live cell's count is the number of positions linking to it (`refs_eq`);
* the free list holds exactly the freed numbers, each once (`free_nodup`, `mem_free`);
* cells made = cells discarded + cells live (`counted`).

Every operation a walk makes keeps it: `Consistent.literal`, `Consistent.bind`,
`Consistent.writable`, `Consistent.lend`, `Consistent.restore`, `Consistent.takeOwned`,
`Consistent.clear` and `Consistent.validate`, and `Consistent.share` when the shared cell is
live. Each leaves its position linked to the cell it returns (`link_literal`, ...), so that cell
is live.

The operations are built from three moves, each proved once: dropping a link (`unlink`, which
frees a cell with its last link), linking a new cell from a position with no link
(`alloc_setLink`), and changing a cell's content but not its count (`modifyCell`). A live cell
rewritten in place keeps the bookkeeping when its count is its links after (`setLive`); that
covers changing a cell's content, dropping one of several links to it, and sharing it from one
more position (`share_vacant`).
-/

namespace SeriesCalc

/-- The cell a link names. -/
def Link.target? : Link → Option Nat
  | .vacant => none
  | .own id => some id
  | .shared id => some id

/-- A link that names no cell is vacant. -/
theorem Link.eq_vacant_of_target? {l : Link} (h : l.target? = none) : l = .vacant := by
  cases l with
  | vacant => rfl
  | own id => cases h
  | shared id => cases h

/-- The derived equality test of links is equality. -/
theorem Link.eq_of_beq {a b : Link} (h : (a == b) = true) : a = b := by
  cases a <;> cases b <;> simp [BEq.beq, instBEqLink.beq] at h ⊢ <;> exact h

namespace CellStore

/-- Number of positions linking to cell `id`. -/
def linkCount (s : CellStore) (id : Nat) : Nat := s.links.countP (·.target? == some id)

/-- Cell `id` is in use. -/
def Live (s : CellStore) (id : Nat) : Prop := (s.cell? id).isSome

/-- Cell `id` has been freed: its number is within the store and it holds nothing. -/
def Vacant (s : CellStore) (id : Nat) : Prop := s.cells[id]? = some none

/-- The links grown with vacant links to cover position `pos`, as `setLink` grows them. -/
def padded (links : Array Link) (pos : Nat) : Array Link :=
  if pos < links.size then links else links ++ Array.replicate (pos + 1 - links.size) .vacant

theorem setLink_eq (s : CellStore) (pos : Nat) (l : Link) :
    s.setLink pos l = { s with links := (padded s.links pos).set! pos l } := rfl

/-! ## Links -/

theorem lt_size_padded (links : Array Link) (pos : Nat) : pos < (padded links pos).size := by
  unfold padded
  split
  · assumption
  · simp only [Array.size_append, Array.size_replicate]
    omega

theorem getD_padded (links : Array Link) (pos q : Nat) :
    (padded links pos).getD q .vacant = links.getD q .vacant := by
  unfold padded
  split
  · rfl
  · simp only [Array.getD_eq_getD_getElem?, Array.getElem?_append]
    split
    · rfl
    · rename_i h
      simp only [Array.getElem?_replicate]
      split <;> simp [Array.getElem?_eq_none (Nat.le_of_not_lt h)]

theorem countP_padded (links : Array Link) (pos id : Nat) :
    (padded links pos).countP (·.target? == some id) = links.countP (·.target? == some id) := by
  unfold padded
  split
  · rfl
  · simp [Array.countP_replicate, Link.target?]

theorem padded_of_lt {links : Array Link} {pos : Nat} (h : pos < links.size) : padded links pos = links := by
  unfold padded
  rw [if_pos h]

variable {s : CellStore}

theorem getElem_padded (links : Array Link) (pos : Nat) (h : pos < (padded links pos).size) :
    (padded links pos)[pos] = links.getD pos .vacant := by
  rw [← getD_padded links pos pos, Array.getD_eq_getD_getElem?, Array.getElem?_eq_getElem h]
  rfl

theorem link_setLink (pos : Nat) (l : Link) (q : Nat) :
    (s.setLink pos l).link q = if q = pos then l else s.link q := by
  rw [setLink_eq]
  unfold link
  simp only [Array.set!_eq_setIfInBounds, Array.getD_eq_getD_getElem?, Array.getElem?_setIfInBounds]
  by_cases hq : q = pos
  · subst hq
    simp [lt_size_padded]
  · rw [if_neg (Ne.symm hq), if_neg hq, ← Array.getD_eq_getD_getElem?, getD_padded,
      Array.getD_eq_getD_getElem?]

theorem linkCount_setLink (pos : Nat) (l : Link) (id : Nat) :
    (s.setLink pos l).linkCount id + (if (s.link pos).target? = some id then 1 else 0) =
      s.linkCount id + (if l.target? = some id then 1 else 0) := by
  rw [setLink_eq]
  unfold linkCount
  have hlt := lt_size_padded s.links pos
  have hle := Array.boole_getElem_le_countP (p := (·.target? == some id)) hlt
  simp only [Array.set!_eq_setIfInBounds, Array.setIfInBounds_def, dif_pos hlt,
    Array.countP_set hlt, countP_padded] at hle ⊢
  rw [getElem_padded _ _ hlt] at hle ⊢
  simp only [beq_iff_eq] at hle ⊢
  unfold link
  omega

theorem link_of_links {s' : CellStore} (h : s'.links = s.links) (q : Nat) : s'.link q = s.link q := by
  unfold link
  rw [h]

theorem linkCount_of_links {s' : CellStore} (h : s'.links = s.links) (j : Nat) :
    s'.linkCount j = s.linkCount j := by
  unfold linkCount
  rw [h]

/-- Linking a position that had no link to cell `id` adds one count to `id`. -/
theorem linkCount_setLink_of_vacant {t : CellStore} (hlinks : t.links = s.links) {pos : Nat}
    (hv : s.link pos = .vacant) {l : Link} {id : Nat} (hl : l.target? = some id) (j : Nat) :
    (t.setLink pos l).linkCount j = s.linkCount j + (if j = id then 1 else 0) := by
  have := linkCount_setLink (s := t) pos l j
  rw [link_of_links hlinks, linkCount_of_links hlinks, hv, hl] at this
  simp only [Link.target?, reduceCtorEq, ite_false, Nat.add_zero, Option.some.injEq] at this
  rw [this]
  by_cases hj : j = id
  · subst hj
    simp
  · simp [hj, Ne.symm hj]

/-- Dropping the link of `pos` to cell `id` takes one count from `id`. -/
theorem linkCount_setLink_vacant {t : CellStore} (hlinks : t.links = s.links) {pos id : Nat}
    (hl : (s.link pos).target? = some id) (j : Nat) :
    (t.setLink pos .vacant).linkCount j + (if j = id then 1 else 0) = s.linkCount j := by
  have := linkCount_setLink (s := t) pos .vacant j
  rw [link_of_links hlinks, linkCount_of_links hlinks, hl] at this
  simp only [Link.target?, reduceCtorEq, ite_false, Nat.add_zero, Option.some.injEq] at this
  rw [← this]
  by_cases hj : j = id
  · subst hj
    simp
  · simp [hj, Ne.symm hj]

@[simp] theorem links_release (id : Nat) : (s.release id).links = s.links := by
  unfold release
  split
  · rfl
  · dsimp only
    split <;> rfl

@[simp] theorem links_modifyCell (id : Nat) (f : Cell → Cell) : (s.modifyCell id f).links = s.links := by
  unfold modifyCell
  split <;> rfl

@[simp] theorem links_alloc (p : Payload) (r : Role) : (s.alloc p r).1.links = s.links := by
  unfold alloc
  dsimp only
  split <;> rfl

/-! ## Cells -/

theorem live_eq_countP (s : CellStore) : s.live = s.cells.countP Option.isSome := by
  unfold live
  rw [Array.countP_eq_size_filter]

/-- Cell `id` is linked from position `pos`, so some position counts towards it. -/
theorem linkCount_pos {pos id : Nat} (h : (s.link pos).target? = some id) : 0 < s.linkCount id := by
  unfold linkCount
  unfold link at h
  rw [Array.getD_eq_getD_getElem?] at h
  rcases hq : s.links[pos]? with _ | l
  · rw [hq] at h
    cases h
  · rw [hq] at h
    obtain ⟨hlt, rfl⟩ := Array.getElem?_eq_some_iff.mp hq
    exact Array.countP_pos_iff.mpr ⟨_, Array.getElem_mem hlt, by simpa using h⟩

/-- A cell that no position links to has a zero count. -/
theorem linkCount_eq_zero {id : Nat} (h : ∀ pos, (s.link pos).target? ≠ some id) :
    s.linkCount id = 0 := by
  unfold linkCount
  rw [Array.countP_eq_zero]
  intro l hl
  obtain ⟨pos, hpos, rfl⟩ := Array.getElem_of_mem hl
  have := h pos
  unfold link at this
  rw [Array.getD_eq_getD_getElem?, Array.getElem?_eq_getElem hpos] at this
  simpa using this

theorem lt_size_of_cell? {id : Nat} {c : Cell} (h : s.cell? id = some c) : id < s.cells.size := by
  unfold cell? at h
  rcases hq : s.cells[id]? with _ | x
  · rw [hq] at h
    cases h
  · exact (Array.getElem?_eq_some_iff.mp hq).1

theorem Vacant.cell? {id : Nat} (h : s.Vacant id) : s.cell? id = none := by
  unfold Vacant at h
  unfold CellStore.cell?
  rw [h]
  rfl

theorem Vacant.lt_size {id : Nat} (h : s.Vacant id) : id < s.cells.size :=
  (Array.getElem?_eq_some_iff.mp h).1

theorem not_vacant_of_cell? {id : Nat} {c : Cell} (h : s.cell? id = some c) : ¬ s.Vacant id :=
  fun hv => by rw [hv.cell?] at h; cases h

section Overwrite

variable (s' : CellStore) {id : Nat} {x : Option Cell}

/-- The cells after cell `id` is overwritten with `x`. -/
theorem cell?_of_set (h : s'.cells = s.cells.set! id x) (hid : id < s.cells.size) (j : Nat) :
    s'.cell? j = if j = id then x else s.cell? j := by
  unfold CellStore.cell?
  rw [h, Array.set!_eq_setIfInBounds, Array.getElem?_setIfInBounds]
  by_cases hj : j = id
  · subst hj
    simp [hid]
  · rw [if_neg (Ne.symm hj), if_neg hj]

theorem vacant_of_set (h : s'.cells = s.cells.set! id x) (hid : id < s.cells.size) (j : Nat) :
    s'.Vacant j ↔ if j = id then x = none else s.Vacant j := by
  unfold Vacant
  rw [h, Array.set!_eq_setIfInBounds, Array.getElem?_setIfInBounds]
  by_cases hj : j = id
  · subst hj
    simp [hid]
  · rw [if_neg (Ne.symm hj), if_neg hj]

theorem live_of_set (h : s'.cells = s.cells.set! id x) (hid : id < s.cells.size) :
    s'.live + (if (s.cell? id).isSome then 1 else 0) = s.live + (if x.isSome then 1 else 0) := by
  have hle := Array.boole_getElem_le_countP (p := Option.isSome) hid
  rw [live_eq_countP, live_eq_countP, h, Array.set!_eq_setIfInBounds, Array.setIfInBounds_def,
    dif_pos hid, Array.countP_set hid]
  have hc : s.cell? id = s.cells[id] := by
    unfold CellStore.cell?
    rw [Array.getElem?_eq_getElem hid]
    rfl
  rw [hc]
  omega

/-- The cells after `x` is added as cell number `s.cells.size`. -/
theorem cell?_of_push (h : s'.cells = s.cells.push x) (j : Nat) :
    s'.cell? j = if j = s.cells.size then x else s.cell? j := by
  unfold CellStore.cell?
  rw [h, Array.getElem?_push]
  split <;> rfl

theorem vacant_of_push (h : s'.cells = s.cells.push x) (j : Nat) :
    s'.Vacant j ↔ if j = s.cells.size then x = none else s.Vacant j := by
  unfold Vacant
  rw [h, Array.getElem?_push]
  split <;> simp

theorem live_of_push (h : s'.cells = s.cells.push x) :
    s'.live = s.live + (if x.isSome then 1 else 0) := by
  rw [live_eq_countP, live_eq_countP, h, Array.countP_push]

end Overwrite

/-! ## What each move does -/

@[simp] theorem cells_setLink (pos : Nat) (l : Link) : (s.setLink pos l).cells = s.cells := rfl

@[simp] theorem free_setLink (pos : Nat) (l : Link) : (s.setLink pos l).free = s.free := rfl

@[simp] theorem counters_setLink (pos : Nat) (l : Link) : (s.setLink pos l).counters = s.counters := rfl

theorem cell?_setLink (pos : Nat) (l : Link) (j : Nat) : (s.setLink pos l).cell? j = s.cell? j := rfl

@[simp] theorem free_modifyCell (id : Nat) (f : Cell → Cell) : (s.modifyCell id f).free = s.free := by
  unfold modifyCell
  split <;> rfl

@[simp] theorem counters_modifyCell (id : Nat) (f : Cell → Cell) :
    (s.modifyCell id f).counters = s.counters := by
  unfold modifyCell
  split <;> rfl

theorem cells_modifyCell {id : Nat} {c : Cell} (hc : s.cell? id = some c) (f : Cell → Cell) :
    (s.modifyCell id f).cells = s.cells.set! id (some (f c)) := by
  unfold modifyCell
  rw [hc]

/-- What releasing a live cell does: the last count frees it, otherwise it loses one count. -/
theorem release_of_cell? {id : Nat} {c : Cell} (hc : s.cell? id = some c) :
    (c.refs ≤ 1 ∧ (s.release id).cells = s.cells.set! id none ∧ (s.release id).free = id :: s.free ∧
      (s.release id).counters.allocated = s.counters.allocated ∧
      (s.release id).counters.discarded = s.counters.discarded + 1) ∨
    (1 < c.refs ∧ (s.release id).cells = s.cells.set! id (some { c with refs := c.refs - 1 }) ∧
      (s.release id).free = s.free ∧ (s.release id).counters = s.counters) := by
  unfold release
  rw [hc]
  dsimp only
  by_cases hr : c.refs - 1 = 0
  · rw [if_pos (by simpa using hr)]
    exact .inl ⟨by omega, rfl, rfl, rfl, rfl⟩
  · rw [if_neg (by simpa using hr)]
    exact .inr ⟨by omega, rfl, rfl, rfl⟩

/-- What allocating does: a freed number is used again, the last freed first, else the cells
grow by one; the new cell holds `p` with one count. -/
theorem alloc_cases (p : Payload) (r : Role) :
    (s.alloc p r).1.counters.allocated = s.counters.allocated + 1 ∧
    (s.alloc p r).1.counters.discarded = s.counters.discarded ∧
    ((s.free = (s.alloc p r).2 :: (s.alloc p r).1.free ∧
        (s.alloc p r).1.cells = s.cells.set! (s.alloc p r).2 (some { payload := p, role := r })) ∨
      (s.free = [] ∧ (s.alloc p r).1.free = [] ∧ (s.alloc p r).2 = s.cells.size ∧
        (s.alloc p r).1.cells = s.cells.push (some { payload := p, role := r }))) := by
  unfold alloc
  dsimp only
  split
  · rename_i id rest hf
    exact ⟨rfl, rfl, .inl ⟨hf, rfl⟩⟩
  · rename_i hf
    exact ⟨rfl, rfl, .inr ⟨hf, hf, rfl, rfl⟩⟩

theorem link_unlink (pos q : Nat) : (s.unlink pos).link q = if q = pos then .vacant else s.link q := by
  unfold unlink
  dsimp only
  rw [link_setLink]
  split
  · rfl
  · split <;> simp only [link_of_links (links_release _)]

theorem unlink_of_target {pos id : Nat} (h : (s.link pos).target? = some id) :
    s.unlink pos = (s.release id).setLink pos .vacant := by
  unfold unlink
  dsimp only
  split <;> rename_i hl <;> rw [hl] at h <;> cases h <;> rfl

theorem unlink_of_vacant {pos : Nat} (h : s.link pos = .vacant) : s.unlink pos = s.setLink pos .vacant := by
  unfold unlink
  dsimp only
  rw [h]

/-! ## Moves that commute -/

theorem setLink_setLink (pos : Nat) (a b : Link) : (s.setLink pos a).setLink pos b = s.setLink pos b := by
  rw [setLink_eq, setLink_eq, setLink_eq]
  dsimp only
  have hlt : pos < ((padded s.links pos).set! pos a).size := by
    rw [Array.set!_eq_setIfInBounds, Array.size_setIfInBounds]
    exact lt_size_padded _ _
  rw [padded_of_lt hlt, Array.set!_eq_setIfInBounds, Array.set!_eq_setIfInBounds,
    Array.setIfInBounds_setIfInBounds]
  rfl

theorem setLink_modifyCell (pos : Nat) (l : Link) (id : Nat) (f : Cell → Cell) :
    (s.modifyCell id f).setLink pos l = (s.setLink pos l).modifyCell id f := by
  unfold modifyCell
  rw [cell?_setLink]
  split <;> rfl

theorem alloc_setLink_comm (pos : Nat) (l : Link) (p : Payload) (r : Role) :
    (s.setLink pos l).alloc p r = ((s.alloc p r).1.setLink pos l, (s.alloc p r).2) := by
  rcases s with ⟨cells, free, links, starting, stamp, counters⟩
  cases free <;> rfl

theorem cell?_modifyCell (id : Nat) (f : Cell → Cell) (j : Nat) :
    (s.modifyCell id f).cell? j = if j = id then (s.cell? id).map f else s.cell? j := by
  unfold modifyCell
  rcases hc : s.cell? id with _ | c
  · dsimp only
    split
    · subst_vars
      rw [hc]
      rfl
    · rfl
  · dsimp only
    rw [cell?_of_set _ rfl (lt_size_of_cell? hc)]
    split <;> rfl

theorem cell?_release_ne {id j : Nat} (h : j ≠ id) : (s.release id).cell? j = s.cell? j := by
  unfold release
  rcases hc : s.cell? id with _ | c
  · rfl
  · dsimp only
    have hid := lt_size_of_cell? hc
    split
    · rw [cell?_of_set _ rfl hid, if_neg h]
    · rw [cell?_of_set _ rfl hid, if_neg h]

/-- Changing one cell and releasing another can be done in either order. -/
theorem release_modifyCell {a b : Nat} (hab : a ≠ b) (f : Cell → Cell) :
    (s.modifyCell a f).release b = (s.release b).modifyCell a f := by
  have hb : (s.modifyCell a f).cell? b = s.cell? b := by
    rw [cell?_modifyCell, if_neg (Ne.symm hab)]
  unfold release
  rw [hb]
  rcases hcb : s.cell? b with _ | c
  · rfl
  · dsimp only
    unfold modifyCell
    have ha : (if c.refs - 1 == 0 then
        { s with cells := s.cells.set! b none, free := b :: s.free,
                 counters.discarded := s.counters.discarded + 1 }
      else { s with cells := s.cells.set! b (some { c with refs := c.refs - 1 }) }).cell? a = s.cell? a := by
      split
      · rw [cell?_of_set _ rfl (lt_size_of_cell? hcb), if_neg hab]
      · rw [cell?_of_set _ rfl (lt_size_of_cell? hcb), if_neg hab]
    rw [ha]
    rcases hca : s.cell? a with _ | d
    · rfl
    · dsimp only
      simp only [Array.set!_eq_setIfInBounds]
      split
      · rw [Array.setIfInBounds_comm _ _ (Ne.symm hab)]
      · rw [Array.setIfInBounds_comm _ _ (Ne.symm hab)]

/-- One count added to a live cell and released again leaves the store as it was. -/
theorem release_modifyCell_succ {id : Nat} {c : Cell} (hc : s.cell? id = some c) (hpos : 0 < c.refs) :
    (s.modifyCell id fun c => { c with refs := c.refs + 1 }).release id = s := by
  have hid := lt_size_of_cell? hc
  unfold modifyCell
  rw [hc]
  dsimp only
  unfold release
  rw [cell?_of_set _ rfl hid, if_pos rfl]
  dsimp only
  rw [if_neg (by simp; omega)]
  have hself : s.cells.set! id (some c) = s.cells := by
    rw [Array.set!_eq_setIfInBounds, Array.setIfInBounds_def, dif_pos hid]
    have : s.cells[id] = some c := by
      unfold CellStore.cell? at hc
      rw [Array.getElem?_eq_getElem hid] at hc
      simpa using hc
    rw [← this, Array.set_getElem_self]
  simp only [Array.set!_eq_setIfInBounds, Array.setIfInBounds_setIfInBounds, Nat.add_sub_cancel]
  rw [← Array.set!_eq_setIfInBounds, hself]

/-! ## Where an operation leaves its position -/

theorem link_literal (pos : Nat) (v : Value) :
    (s.literal pos v).1.link pos = .own (s.literal pos v).2 := by
  unfold literal
  dsimp only
  split
  · rename_i id hk
    split at hk
    · split at hk
      · cases hk
        assumption
      · cases hk
    · cases hk
  · rw [link_setLink, if_pos rfl]

theorem link_bind (pos : Nat) (hd : Handle) (k : ValueKind) (r : Role) :
    (s.bind pos hd k r).1.link pos = .own (s.bind pos hd k r).2 := by
  unfold bind
  dsimp only
  split
  · rename_i id hk
    rw [link_of_links (links_modifyCell _ _)]
    split at hk
    · split at hk
      · cases hk
        assumption
      · cases hk
    · cases hk
  · rw [link_setLink, if_pos rfl]

theorem link_writable (pos : Nat) : (s.writable pos).1.link pos = .own (s.writable pos).2 := by
  unfold writable
  dsimp only
  split
  · rename_i id hl
    split
    · split
      · rw [link_of_links (links_modifyCell _ _)]
        exact hl
      · exact hl
    · rw [link_setLink, if_pos rfl]
  · rw [link_setLink, if_pos rfl]
  · rw [link_setLink, if_pos rfl]

theorem link_share (pos target : Nat) : (s.share pos target).link pos = .shared target := by
  unfold share
  split
  · rename_i hl
    exact Link.eq_of_beq hl
  · dsimp only
    rw [link_setLink, if_pos rfl]

theorem live_modifyCell {id j : Nat} {f : Cell → Cell} : (s.modifyCell id f).Live j ↔ s.Live j := by
  unfold Live
  rw [cell?_modifyCell]
  split
  · subst_vars
    cases s.cell? j <;> simp
  · rfl

theorem live_lend {id j : Nat} : (s.lend id).1.Live j ↔ s.Live j := by
  unfold lend
  split
  · exact live_modifyCell
  · rfl

theorem live_restore {id j : Nat} {v : Value} : (s.restore id v).Live j ↔ s.Live j := by
  unfold restore
  split
  · rfl
  · dsimp only
    split
    · exact live_modifyCell
    · split
      · exact live_modifyCell
      · exact live_modifyCell

/-- The bookkeeping of a cell store: links name live cells, every live cell counts the links to
it, the free list holds each freed number once, and the counters balance. -/
structure Consistent (s : CellStore) : Prop where
  linked_live : ∀ pos id, (s.link pos).target? = some id → s.Live id
  refs_eq : ∀ id c, s.cell? id = some c → c.refs = s.linkCount id
  free_nodup : s.free.Nodup
  mem_free : ∀ id, id ∈ s.free ↔ s.Vacant id
  counted : s.counters.allocated = s.counters.discarded + s.live

namespace Consistent

variable {s : CellStore}

theorem linkCount_of_dead (h : s.Consistent) {id : Nat} (hd : s.cell? id = none) :
    s.linkCount id = 0 :=
  linkCount_eq_zero fun pos hpos => by
    have := h.linked_live pos id hpos
    unfold Live at this
    rw [hd] at this
    cases this

/-- Rewriting a live cell in place keeps the bookkeeping, when the links after name only cells
that were live, every other cell keeps its count of links, and the new cell's count is its count
of links after. -/
theorem setLive (h : s.Consistent) {t : CellStore} {id : Nat} {c c' : Cell}
    (hc : s.cell? id = some c) (hcells : t.cells = s.cells.set! id (some c'))
    (hfree : t.free = s.free) (hcounters : t.counters = s.counters)
    (hlinked : ∀ pos j, (t.link pos).target? = some j → s.Live j)
    (hcount : ∀ j, j ≠ id → t.linkCount j = s.linkCount j) (hrefs : c'.refs = t.linkCount id) :
    t.Consistent := by
  have hid := lt_size_of_cell? hc
  have hcell := cell?_of_set t hcells hid
  have hlive := live_of_set t hcells hid
  rw [hc] at hlive
  refine ⟨fun pos j hj => ?_, fun j d hd => ?_, hfree ▸ h.free_nodup, fun j => ?_, ?_⟩
  · unfold Live
    rw [hcell]
    split
    · rfl
    · exact hlinked pos j hj
  · rw [hcell] at hd
    split at hd
    · rename_i hj
      subst hj
      cases hd
      exact hrefs
    · rename_i hj
      rw [hcount j hj]
      exact h.refs_eq j d hd
  · rw [hfree, vacant_of_set t hcells hid, h.mem_free]
    split
    · subst_vars
      simp only [reduceCtorEq, iff_false]
      exact not_vacant_of_cell? hc
    · rfl
  · have := h.counted
    rw [hcounters]
    simp only [Option.isSome_some, ite_true] at hlive
    omega

/-- Changing what a cell holds, but not its count, keeps the bookkeeping. -/
theorem modifyCell (h : s.Consistent) (id : Nat) {f : Cell → Cell} (hf : ∀ c, (f c).refs = c.refs) :
    (s.modifyCell id f).Consistent := by
  rcases hc : s.cell? id with _ | c
  · -- no cell there: nothing changes
    unfold CellStore.modifyCell
    rw [hc]
    exact h
  · have hlinks := links_modifyCell (s := s) id f
    refine h.setLive hc (cells_modifyCell hc f) (free_modifyCell id f) (counters_modifyCell id f)
      (fun pos j hj => h.linked_live pos j (by rwa [link_of_links hlinks] at hj))
      (fun j _ => linkCount_of_links hlinks j) ?_
    rw [hf, linkCount_of_links hlinks, h.refs_eq id c hc]

/-- Dropping the link of `pos` to cell `id` releases one count of `id`, freeing it with the last. -/
theorem release_setLink (h : s.Consistent) {pos id : Nat} (hl : (s.link pos).target? = some id) :
    ((s.release id).setLink pos .vacant).Consistent := by
  obtain ⟨c, hc⟩ := Option.isSome_iff_exists.mp (h.linked_live pos id hl)
  have hid := lt_size_of_cell? hc
  have hrefs := h.refs_eq id c hc
  -- the links after: `pos` is vacant, and `id` has one link fewer
  have hcount := linkCount_setLink_vacant (links_release (s := s) id) hl
  have hlinked : ∀ q j, (((s.release id).setLink pos .vacant).link q).target? = some j →
      (s.link q).target? = some j := fun q j hj => by
    rw [link_setLink, link_of_links (links_release id)] at hj
    split at hj
    · cases hj
    · exact hj
  rcases release_of_cell? hc with ⟨hr, hcells, hfree, halloc, hdisc⟩ | ⟨hr, hcells, hfree, hcnt⟩
  · -- the last link goes: the cell is freed
    have hcell := cell?_of_set ((s.release id).setLink pos .vacant) hcells hid
    have hlive := live_of_set ((s.release id).setLink pos .vacant) hcells hid
    rw [hc] at hlive
    have hgone : ((s.release id).setLink pos .vacant).linkCount id = 0 := by
      have := hcount id
      simp only [ite_true] at this
      omega
    refine ⟨fun q j hj => ?_, fun j d hd => ?_, ?_, fun j => ?_, ?_⟩
    · have hj' := linkCount_pos hj
      unfold Live
      rw [hcell]
      split
      · subst_vars
        omega
      · exact h.linked_live q j (hlinked q j hj)
    · rw [hcell] at hd
      split at hd
      · cases hd
      · rename_i hj
        have := hcount j
        rw [if_neg hj, Nat.add_zero] at this
        rw [this]
        exact h.refs_eq j d hd
    · simp only [free_setLink, hfree, List.nodup_cons]
      exact ⟨fun hm => not_vacant_of_cell? hc ((h.mem_free id).mp hm), h.free_nodup⟩
    · simp only [free_setLink, hfree, List.mem_cons]
      rw [vacant_of_set ((s.release id).setLink pos .vacant) hcells hid, h.mem_free]
      split
      · simp_all
      · simp_all
    · have := h.counted
      simp only [counters_setLink, halloc, hdisc] at hlive ⊢
      simp only [Option.isSome_some, ite_true, Option.isSome_none, Bool.false_eq_true,
        ite_false] at hlive
      omega
  · -- other links remain: the cell loses one count in place
    refine h.setLive hc hcells hfree hcnt (fun q j hj => h.linked_live q j (hlinked q j hj))
      (fun j hj => by simpa [hj] using hcount j) ?_
    have := hcount id
    simp only [ite_true] at this
    dsimp only
    omega

/-- A new cell with one count, linked from a position that had no link, keeps the
bookkeeping. -/
theorem fresh_setLink (h : s.Consistent) {pos : Nat} (hv : s.link pos = .vacant) {t : CellStore}
    {id : Nat} {c₀ : Cell} (hc₀ : c₀.refs = 1) (hdead : s.cell? id = none)
    (hcell : ∀ j, t.cell? j = if j = id then some c₀ else s.cell? j) (hlinks : t.links = s.links)
    (hnodup : t.free.Nodup) (hfree : ∀ j, j ∈ t.free ↔ t.Vacant j)
    (hcounted : t.counters.allocated = t.counters.discarded + t.live) :
    (t.setLink pos (.own id)).Consistent := by
  have hlink : ∀ q, (t.setLink pos (.own id)).link q = if q = pos then .own id else s.link q :=
    fun q => by rw [link_setLink, link_of_links hlinks]
  have hcount := linkCount_setLink_of_vacant hlinks hv (l := .own id) rfl
  refine ⟨fun q j hj => ?_, fun j d hd => ?_, hnodup, hfree, hcounted⟩
  · unfold Live
    rw [cell?_setLink, hcell]
    rw [hlink] at hj
    split at hj
    · cases hj
      simp
    · have := h.linked_live q j hj
      split
      · rfl
      · exact this
  · rw [cell?_setLink, hcell] at hd
    rw [hcount]
    split at hd
    · cases hd
      rename_i hj
      subst hj
      rw [h.linkCount_of_dead hdead, hc₀]
      simp
    · rename_i hj
      rw [if_neg hj, Nat.add_zero]
      exact h.refs_eq j d hd

/-- Allocating a cell for a position that had no link, and linking it, keeps the bookkeeping. -/
theorem alloc_setLink (h : s.Consistent) {pos : Nat} (hv : s.link pos = .vacant) (p : Payload)
    (r : Role) : ((s.alloc p r).1.setLink pos (.own (s.alloc p r).2)).Consistent := by
  obtain ⟨halloc, hdisc, hcases⟩ := alloc_cases (s := s) p r
  rcases hcases with ⟨hfree, hcells⟩ | ⟨hfree, hfree', hid, hcells⟩
  · -- a freed number is used again
    have hvac : s.Vacant (s.alloc p r).2 := (h.mem_free _).mp (by rw [hfree]; exact List.mem_cons_self)
    have hlt := hvac.lt_size
    have hlive := live_of_set _ hcells hlt
    rw [hvac.cell?] at hlive
    refine h.fresh_setLink hv rfl hvac.cell? (cell?_of_set _ hcells hlt) (links_alloc p r) ?_ (fun j => ?_) ?_
    · have := h.free_nodup
      rw [hfree] at this
      exact (List.nodup_cons.mp this).2
    · rw [vacant_of_set _ hcells hlt]
      have hnd := h.free_nodup
      rw [hfree] at hnd
      split
      · rename_i hj
        subst hj
        simp only [reduceCtorEq, iff_false]
        exact (List.nodup_cons.mp hnd).1
      · rename_i hj
        rw [← h.mem_free, hfree, List.mem_cons]
        simp [hj]
    · have := h.counted
      simp only [Option.isSome_none, Bool.false_eq_true, ite_false, Option.isSome_some, ite_true,
        Nat.add_zero] at hlive
      omega
  · -- no number is free: the cells grow
    have hcell := cell?_of_push _ hcells
    rw [← hid] at hcell
    have hdead : s.cell? (s.alloc p r).2 = none := by
      unfold CellStore.cell?
      rw [hid, Array.getElem?_eq_none (Nat.le_refl _)]
      rfl
    refine h.fresh_setLink hv rfl hdead hcell (links_alloc p r) (by rw [hfree']; exact List.nodup_nil)
      (fun j => ?_) ?_
    · rw [hfree', vacant_of_push _ hcells]
      simp only [List.not_mem_nil, false_iff]
      split
      · simp
      · rw [← h.mem_free, hfree]
        simp
    · have := h.counted
      rw [live_of_push _ hcells]
      simp only [Option.isSome_some, ite_true]
      omega

/-- A link that changes kind but names the same cell changes nothing the bookkeeping sees. -/
theorem relink (h : s.Consistent) {pos : Nat} {l : Link} (hl : (s.link pos).target? = l.target?) :
    (s.setLink pos l).Consistent := by
  have hlink : ∀ q, ((s.setLink pos l).link q).target? = (s.link q).target? := fun q => by
    rw [link_setLink]
    split
    · subst_vars
      exact hl.symm
    · rfl
  have hcount : ∀ j, (s.setLink pos l).linkCount j = s.linkCount j := fun j => by
    have := linkCount_setLink (s := s) pos l j
    rw [hl] at this
    omega
  refine ⟨fun q j hj => ?_, fun j c hc => ?_, h.free_nodup, h.mem_free, h.counted⟩
  · rw [hlink] at hj
    exact h.linked_live q j hj
  · rw [hcount]
    exact h.refs_eq j c hc

/-- A position with no link that comes to share a live cell adds one count to it. -/
theorem share_vacant (h : s.Consistent) {pos target : Nat} (hv : s.link pos = .vacant)
    (ht : s.Live target) :
    ((s.modifyCell target fun c => { c with refs := c.refs + 1 }).setLink pos (.shared target)).Consistent := by
  obtain ⟨c, hc⟩ := Option.isSome_iff_exists.mp ht
  have hlinks := links_modifyCell (s := s) target fun c => { c with refs := c.refs + 1 }
  have hcount := linkCount_setLink_of_vacant hlinks hv (l := .shared target) rfl
  refine h.setLive hc (cells_modifyCell hc _) (free_modifyCell _ _) (counters_modifyCell _ _)
    (fun q j hj => ?_) (fun j hj => by rw [hcount j, if_neg hj, Nat.add_zero]) ?_
  · -- the new link names the shared cell, every other link what it named before
    rw [link_setLink, link_of_links hlinks] at hj
    split at hj
    · cases hj
      exact ht
    · exact h.linked_live q j hj
  · rw [hcount target, if_pos rfl, ← h.refs_eq target c hc]

/-- Dropping whatever a position links to keeps the bookkeeping. -/
theorem unlink (h : s.Consistent) (pos : Nat) : (s.unlink pos).Consistent := by
  unfold CellStore.unlink
  dsimp only
  split
  · rename_i id hl
    exact h.release_setLink (by rw [hl]; rfl)
  · rename_i id hl
    exact h.release_setLink (by rw [hl]; rfl)
  · rename_i hl
    exact h.relink (by rw [hl])

/-! ## The operations of a walk -/

theorem literal (h : s.Consistent) (pos : Nat) (v : Value) : (s.literal pos v).1.Consistent := by
  unfold CellStore.literal
  dsimp only
  split
  · exact h
  · exact (h.unlink pos).alloc_setLink (by rw [link_unlink, if_pos rfl]) _ _

theorem bind (h : s.Consistent) (pos : Nat) (hd : Handle) (k : ValueKind) (r : Role) :
    (s.bind pos hd k r).1.Consistent := by
  unfold CellStore.bind
  dsimp only
  split
  · exact h.modifyCell _ fun _ => rfl
  · rw [setLink_modifyCell]
    exact ((h.unlink pos).alloc_setLink (by rw [link_unlink, if_pos rfl]) _ _).modifyCell _ fun _ => rfl

theorem writable (h : s.Consistent) (pos : Nat) : (s.writable pos).1.Consistent := by
  unfold CellStore.writable
  dsimp only
  split
  · rename_i id hl
    split
    · split
      · exact h.modifyCell _ fun _ => rfl
      · exact h
    · rename_i hc
      have := h.linked_live pos id (by rw [hl]; rfl)
      unfold Live at this
      rw [hc] at this
      cases this
  · rename_i old hl
    -- the shared link is dropped and a fresh cell linked in its place
    have hu := h.release_setLink (show (s.link pos).target? = some old by rw [hl]; rfl)
    have := hu.alloc_setLink (by rw [link_setLink, if_pos rfl]) (.owned .null) .result
    rw [alloc_setLink_comm] at this
    dsimp only at this
    rwa [setLink_setLink] at this
  · rename_i hl
    exact h.alloc_setLink hl _ _

theorem share (h : s.Consistent) {target : Nat} (ht : s.Live target) (pos : Nat) :
    (s.share pos target).Consistent := by
  unfold CellStore.share
  split
  · exact h
  · dsimp only
    have hlinks := links_modifyCell (s := s) target fun c => { c with refs := c.refs + 1 }
    rcases hl : (s.link pos).target? with _ | old
    · -- no link before
      have hv : s.link pos = .vacant := Link.eq_vacant_of_target? hl
      rw [unlink_of_vacant (by rw [link_of_links hlinks]; exact hv), setLink_setLink]
      exact h.share_vacant hv ht
    · rw [unlink_of_target (by rw [link_of_links hlinks]; exact hl), setLink_setLink]
      by_cases ho : old = target
      · -- the position held the target itself: the added count is released again
        subst ho
        obtain ⟨c, hc⟩ := Option.isSome_iff_exists.mp ht
        have hpos : 0 < c.refs := by
          rw [h.refs_eq _ c hc]
          exact linkCount_pos hl
        rw [release_modifyCell_succ hc hpos]
        exact h.relink (by rw [hl]; rfl)
      · -- another cell is released, as `unlink` does
        have hu := h.release_setLink hl
        have hlive : ((s.release old).setLink pos .vacant).Live target := by
          unfold Live
          rw [cell?_setLink, cell?_release_ne (Ne.symm ho)]
          exact ht
        have := hu.share_vacant (by rw [link_setLink, if_pos rfl]) hlive
        rw [setLink_modifyCell, setLink_setLink, ← setLink_modifyCell] at this
        rwa [release_modifyCell (Ne.symm ho)]

/-- The bookkeeping looks only at the cells, the free list, the links and two counters. -/
theorem of_same (h : s.Consistent) {t : CellStore} (hc : t.cells = s.cells) (hf : t.free = s.free)
    (hl : t.links = s.links) (ha : t.counters.allocated = s.counters.allocated)
    (hd : t.counters.discarded = s.counters.discarded) : t.Consistent := by
  have hcell : ∀ j, t.cell? j = s.cell? j := fun j => by unfold CellStore.cell?; rw [hc]
  have hvac : ∀ j, t.Vacant j ↔ s.Vacant j := fun j => by unfold Vacant; rw [hc]
  have hlive : t.live = s.live := by unfold CellStore.live; rw [hc]
  refine ⟨fun q j hj => ?_, fun j c hj => ?_, hf ▸ h.free_nodup, fun j => ?_, ?_⟩
  · unfold Live
    rw [hcell]
    exact h.linked_live q j (by rwa [← link_of_links hl])
  · rw [linkCount_of_links hl]
    exact h.refs_eq j c (by rwa [← hcell])
  · rw [hf, hvac]
    exact h.mem_free j
  · rw [ha, hd, hlive]
    exact h.counted

theorem lend (h : s.Consistent) (id : Nat) : (s.lend id).1.Consistent := by
  unfold CellStore.lend
  split
  · exact h.modifyCell _ fun _ => rfl
  · exact h

theorem restore (h : s.Consistent) (id : Nat) (v : Value) : (s.restore id v).Consistent := by
  unfold CellStore.restore
  split
  · exact h
  · dsimp only
    have hm := h.modifyCell id (f := fun c => { c with lastKind := v.kind, payload := .owned v }) fun _ => rfl
    split
    · exact hm
    · split
      · exact hm.of_same rfl rfl rfl rfl rfl
      · exact hm.of_same rfl rfl rfl rfl rfl

theorem takeOwned (h : s.Consistent) (id : Nat) : (s.takeOwned id).1.Consistent := by
  unfold CellStore.takeOwned
  split
  · split
    · exact h
    · split
      · exact h.modifyCell _ fun _ => rfl
      · exact h
  · exact h

/-- A store with no cells and no links is consistent once its counters balance. -/
theorem bare {t : CellStore} (hc : t.cells = #[]) (hf : t.free = []) (hl : t.links = #[])
    (hn : t.counters.allocated = t.counters.discarded) : t.Consistent := by
  have hcell : ∀ j, t.cell? j = none := fun j => by simp [CellStore.cell?, hc]
  refine ⟨fun q j hj => ?_, fun j c hc' => ?_, hf ▸ List.nodup_nil, fun j => ?_, ?_⟩
  · have : t.link q = .vacant := by simp [CellStore.link, hl]
    rw [this] at hj
    cases hj
  · rw [hcell] at hc'
    cases hc'
  · simp [hf, Vacant, hc]
  · have hlive : t.live = 0 := by simp [CellStore.live, hc]
    omega

/-- The cells a statement starts with. -/
theorem empty : ({} : CellStore).Consistent := bare rfl rfl rfl rfl

/-- Dropping every cell and link counts the live cells as discarded. -/
theorem clear (h : s.Consistent) : s.clear.Consistent :=
  bare rfl rfl rfl (by
    have hdisc : s.clear.counters.discarded = s.counters.discarded + s.live := rfl
    have halloc : s.clear.counters.allocated = s.counters.allocated := rfl
    have := h.counted
    omega)

theorem validate (h : s.Consistent) (st : Stamp) : (s.validate st).Consistent := by
  unfold CellStore.validate
  split
  · split
    · exact h
    · exact h.clear.of_same rfl rfl rfl rfl rfl
  · exact h.of_same rfl rfl rfl rfl rfl

end Consistent

end CellStore

end SeriesCalc
