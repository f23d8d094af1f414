import SeriesCalc.Proofs.Cells.Frame

/-!
# What an operator reads from its operands

An operator evaluates its operands one after another and then reads the cells they returned.
The cell a position returns is the one the position links to, and every position that owns it
lies in the position's subtree (`CellStore.Holds`), as long as no cell has two owners
(`CellStore.OwnUnique`): the first run's empty cells have none (`OwnUnique.empty`), and no
step of a walk makes one (`CellStore.Confined.unique`).

* **Results** (`CellStore.Holds S pos id`): each operation that makes a position's result leaves
  it so: `literal`, `bind` and an operator write a cell the position owns alone; `share` links the
  position to a cell whose owners are where they were (`Holds.share`).
* **The walk** (`EvalM.Returns fr S pos x`): `x` returns a cell that `pos` links to and that only
  positions of `S` own. Each kind of node returns its own result once its children do
  (`Walk.step_returns`), so evaluating a position returns a cell owned inside its subtree
  (`evalNode_returns`).
* **`later_operand_keeps_earlier`**: when no position lies below both of two operands, the cell
  the first returned reads the same after the second is evaluated. A position below both breaks
  this: the second operand evaluates it again and may rewrite or release the first's cell.
-/

namespace SeriesCalc

namespace CellStore

variable {S S' : Nat → Prop} {s : CellStore} {pos id : Nat}

/-! ## Owners of a result -/

/-- Every position that owns cell `id` lies in `S`. -/
def OwnedWithin (S : Nat → Prop) (s : CellStore) (id : Nat) : Prop := ∀ p, s.link p = .own id → S p

/-- What evaluating `pos` leaves about the cell `id` it returned: no cell has two owners, `pos`
links to `id`, and every owner of `id` lies in `S`. -/
structure Holds (S : Nat → Prop) (pos id : Nat) (s : CellStore) : Prop where
  unique : s.OwnUnique
  linked : (s.link pos).target? = some id
  owned : s.OwnedWithin S id

/-- The first run starts with no links, so with no owners. -/
theorem OwnUnique.empty : ({} : CellStore).OwnUnique := by
  intro p q id hp _
  simp [CellStore.link] at hp

theorem Holds.mono (h : s.Holds S pos id) (hS : ∀ p, S p → S' p) : s.Holds S' pos id :=
  ⟨h.unique, h.linked, fun p hp => hS p (h.owned p hp)⟩

/-- A cell that `pos` owns is owned by `pos` alone. -/
theorem Holds.of_own (hu : s.OwnUnique) (hpos : S pos) (hown : s.link pos = .own id) :
    s.Holds S pos id := by
  refine ⟨hu, by rw [hown]; rfl, fun p hp => ?_⟩
  rw [hu p pos id hp hown]
  exact hpos

theorem Holds.literal (h : s.Consistent) (hu : s.OwnUnique) (hpos : S pos) (v : Value) :
    (s.literal pos v).1.Holds S pos (s.literal pos v).2 :=
  of_own ((Confined.literal h hpos v).unique hu) hpos (link_literal pos v)

theorem Holds.bind (h : s.Consistent) (hu : s.OwnUnique) (hpos : S pos) (hd : Handle) (k : ValueKind)
    (r : Role) : (s.bind pos hd k r).1.Holds S pos (s.bind pos hd k r).2 :=
  of_own ((Confined.bind h hpos hd k r).unique hu) hpos (link_bind pos hd k r)

theorem Holds.compute (h : s.Consistent) (hu : s.OwnUnique) (hpos : S pos) (v : Value) :
    (((s.writable pos).1.lend (s.writable pos).2).1.restore (s.writable pos).2 v).Holds S pos
      (s.writable pos).2 := by
  refine of_own ((Confined.compute h hpos v).unique hu) hpos ?_
  rw [link_restore, link_lend]
  exact link_writable pos

/-- Sharing the result of another position `q`: the owners of the shared cell are where they
were, since `pos` now only shares it and no other position was relinked. -/
theorem Holds.share (h : s.Consistent) {q target : Nat} (hq : s.Holds S q target) (hpos : S pos) :
    (s.share pos target).Holds S pos target := by
  have hconf := Confined.share (S := fun p => p = pos) h rfl target
  refine ⟨(Confined.share h hpos target).unique hq.unique, by rw [link_share]; rfl, fun p hp => ?_⟩
  by_cases hpp : p = pos
  · rw [hpp, link_share] at hp
    cases hp
  · rw [hconf.link_eq p hpp] at hp
    exact hq.owned p hp

end CellStore

/-! ## Returning a result -/

namespace EvalM

/-- Every run of `x` from consistent cells in which no cell has two owners, if it returns `id`,
ends with `pos` linking to `id` and only positions of `S` owning it. -/
abbrev Returns (fr : Frame) (S : Nat → Prop) (pos : Nat) (x : EvalM Nat) : Prop :=
  Tidy fr (fun c => c.OwnUnique) x fun id c => c.Holds S pos id

namespace Tidy

variable {α : Type} {fr : Frame} {S : Nat → Prop} {pos : Nat} {x : EvalM α} {R : α → CellStore → Prop}

/-- A step confined to `S` gives no cell a second owner, whether it returns or fails. -/
theorem ownUnique_of_within (hw : Within fr S x) (ht : Tidy fr (fun _ => True) x R) :
    Tidy fr (fun c => c.OwnUnique) x fun _ c => c.OwnUnique :=
  fun m hm hu => ⟨(ht m hm trivial).1, fun _ _ => (hw m hm).unique hu⟩

theorem literal_returns (hpos : S pos) (v : Value) : Returns fr S pos (EvalM.literal pos v) :=
  modifyCells_of fun _ hc hu => ⟨hc.literal pos v, CellStore.Holds.literal hc hu hpos v⟩

theorem bindCell_returns (hpos : S pos) (hd : Handle) (k : ValueKind) (r : Role) :
    Returns fr S pos (EvalM.bindCell pos hd k r) :=
  modifyCells_of fun _ hc hu => ⟨hc.bind pos hd k r, CellStore.Holds.bind hc hu hpos hd k r⟩

/-- Sharing the cell that position `q` returned. -/
theorem share_returns (hpos : S pos) {q target : Nat} :
    Tidy fr (fun c => c.Holds S q target) (EvalM.share pos target) fun id c => c.Holds S pos id :=
  modifyCells_of fun _ hc hq =>
    ⟨hc.share (hc.linked_live q target hq.linked) pos, CellStore.Holds.share hc hq hpos⟩

theorem compute_returns (hpos : S pos) (op : OpEnv → OpM Unit) : Returns fr S pos (EvalM.compute pos op) := by
  intro m hm hu
  obtain ⟨v, hcells, hid⟩ := compute_cells fr m pos op
  rw [hcells]
  refine ⟨((hm.writable pos).lend _).restore _ v, fun id h => ?_⟩
  rw [hid id h]
  exact CellStore.Holds.compute hm hu hpos v

/-- Forgetting which cell was returned keeps that no cell has two owners. -/
theorem keepsUnique {q : Nat} {x : EvalM Nat} (h : Returns fr S q x) :
    Tidy fr (fun c => c.OwnUnique) x fun _ c => c.OwnUnique :=
  h.conseq (fun _ h => h) fun _ _ h => h.unique

end Tidy

end EvalM

namespace Walk

open EvalM

/-! ### One node

Each node's lemma assumes that every child returns a cell owned inside `S`, and that its own
position is in `S`; a call also needs that its arguments stay inside `S` (`Walk.call_returns`). -/

variable {fr : Frame} {S : Nat → Prop} {child : Nat → EvalM Nat} {pos : Nat}

theorem ident_returns (hpos : S pos) (name : String) : Returns fr S pos (ident pos name) := by
  unfold ident
  refine Tidy.workspace.bind fun ws => ?_
  split
  · exact Tidy.bindCell_returns hpos _ _ _
  · split
    · exact Tidy.bindCell_returns hpos _ _ _
    · exact Tidy.fail _

theorem logical_returns (hpos : S pos) {op : BinaryOp} {l r : Nat} (hl : Returns fr S l (child l))
    (hr : Returns fr S r (child r)) : Returns fr S pos (logical child pos op l r) := by
  unfold logical
  refine hl.bind fun a => (Tidy.operand a).bind fun o => ?_
  dsimp only
  split
  · split
    · -- the left operand decides: the node shares the cell it returned
      exact Tidy.share_returns hpos
    · exact (Tidy.compute_returns hpos _).weaken fun _ h => h.unique
  · exact (hr.weaken fun _ h => h.unique).bind fun _ =>
      (Tidy.compute_returns hpos _).weaken fun _ h => h.unique

theorem seriesConditional_returns (hpos : S pos) {c : Nat} {sample : Array Float} {thenB elseB : Nat}
    (ha : Returns fr S thenB (child thenB)) (hb : Returns fr S elseB (child elseB)) :
    Returns fr S pos (seriesConditional child pos c sample thenB elseB) := by
  unfold seriesConditional
  refine Tidy.workspace.bind fun ws => ?_
  dsimp only
  split
  · exact Tidy.compute_returns hpos _
  · exact ha.bind fun _ => (Tidy.operand _).bind fun _ => Tidy.ite (Tidy.share_returns hpos)
      (Tidy.ite ((Tidy.compute_returns hpos _).weaken fun _ h => h.unique)
        ((Tidy.compute_returns hpos _).weaken fun _ h => h.unique))
  · exact hb.bind fun _ => (Tidy.operand _).bind fun _ => Tidy.ite (Tidy.share_returns hpos)
      (Tidy.ite ((Tidy.compute_returns hpos _).weaken fun _ h => h.unique)
        ((Tidy.compute_returns hpos _).weaken fun _ h => h.unique))
  · exact ha.keepsUnique.bind fun _ => hb.keepsUnique.bind fun _ => Tidy.compute_returns hpos _

theorem conditional_returns (hpos : S pos) {cond thenB elseB : Nat} (hc : Returns fr S cond (child cond))
    (ha : Returns fr S thenB (child thenB)) (hb : Returns fr S elseB (child elseB)) :
    Returns fr S pos (conditional child pos cond thenB elseB) := by
  unfold conditional
  refine hc.keepsUnique.bind fun c => (Tidy.operand c).bind fun o => ?_
  split
  · split
    · exact ha.bind fun _ => Tidy.share_returns hpos
    · exact hb.bind fun _ => Tidy.share_returns hpos
    · exact Tidy.compute_returns hpos _
  · split
    · exact Tidy.workspace.bind fun _ => (Tidy.lift _).bind fun _ =>
        seriesConditional_returns hpos ha hb
    · exact ha.keepsUnique.bind fun _ => hb.keepsUnique.bind fun _ => Tidy.compute_returns hpos _
    · exact Tidy.fail _

/-- Elements evaluated one after another. -/
theorem children_keepsUnique {cs : List Nat} (h : ∀ c ∈ cs, Returns fr S c (child c)) :
    Tidy fr (fun c => c.OwnUnique) (cs.mapM child) fun _ c => c.OwnUnique :=
  Tidy.mapM cs fun c hc => (h c hc).keepsUnique

theorem matrixLiteral_returns (hpos : S pos) {rows : Children}
    (h : ∀ row ∈ fr.forest.list rows, ∀ elems, fr.forest.node? row = some (.matrixRow elems) →
      ∀ c ∈ fr.forest.list elems, Returns fr S c (child c)) :
    Returns fr S pos (matrixLiteral child pos rows) := by
  unfold matrixLiteral
  refine Tidy.read_bind ((Tidy.mapM _ fun row hrow => ?_).bind fun _ => Tidy.compute_returns hpos _)
  split
  · rename_i elems hrow'
    exact children_keepsUnique (h row hrow elems hrow')
  · exact Tidy.throw _

theorem listLiteral_returns (hpos : S pos) {elems : Children}
    (h : ∀ c ∈ fr.forest.list elems, Returns fr S c (child c)) :
    Returns fr S pos (listLiteral child pos elems) := by
  unfold listLiteral
  exact Tidy.read_bind ((children_keepsUnique h).bind fun _ => Tidy.compute_returns hpos _)

theorem arrayLiteral_returns (hpos : S pos) {elems : Children}
    (h : ∀ c ∈ fr.forest.list elems, Returns fr S c (child c)) :
    Returns fr S pos (arrayLiteral child pos elems) := by
  unfold arrayLiteral
  exact Tidy.read_bind ((children_keepsUnique h).bind fun _ => Tidy.compute_returns hpos _)

theorem bundleLiteral_returns (hpos : S pos) {pairs : Children}
    (h : ∀ c ∈ fr.forest.list pairs, Returns fr S c (child c)) :
    Returns fr S pos (bundleLiteral child pos pairs) := by
  unfold bundleLiteral
  refine Tidy.read_bind ((Tidy.mapM _ fun chunk hchunk => ?_).bind fun _ => Tidy.compute_returns hpos _)
  split
  · rename_i key value
    have hv : value ∈ fr.forest.list pairs :=
      Forest.mem_of_mem_chunksOfTwo hchunk value (by simp)
    split
    · exact (h value hv).keepsUnique.bind fun _ => Tidy.pure _
    · exact Tidy.throw _
  · exact Tidy.throw _

/-- Every way through a member lookup ends in the same join: the cell just bound at the position,
or a cell computed into it. -/
theorem accessJoin_returns (hpos : S pos) (b : Nat) (subs : List Subscript) (bound? : Option Nat) :
    Tidy fr (fun c => c.OwnUnique ∧ ∀ id, bound? = some id → c.Holds S pos id) (match bound? with
      | some id => pure id
      | none => compute pos fun env => do
        let base ← OpM.read env b
        OpM.put (← OpM.lift (indexValue base.value subs env.ds))) fun id c => c.Holds S pos id := by
  split
  · exact Tidy.returns _ fun _ h => h.2 _ rfl
  · exact (Tidy.compute_returns hpos _).weaken fun _ h => h.1

theorem access_returns (hpos : S pos) (b : Nat) (subs : List Subscript) :
    Returns fr S pos (access pos b subs) := by
  unfold access
  refine (Tidy.operand b).bind fun base => ?_
  split
  · exact (Tidy.lift _).bind fun _ => Tidy.bindCell_returns hpos _ _ _
  · refine (Tidy.lift _).bind fun _ => Tidy.get.bind fun m => ?_
    dsimp only
    split
    · refine (Tidy.lift _).bind fun _ => Tidy.ite ?_ ?_
      · exact (Tidy.returns _ fun _ hu => ⟨hu, fun _ h => by cases h⟩).bind fun _ =>
          accessJoin_returns hpos b _ _
      · -- the cell just bound is the one the join returns
        exact (Tidy.bindCell_returns hpos _ _ _).bind fun _ =>
          (Tidy.returns _ fun _ h => ⟨h.unique, fun _ hid => by cases hid; exact h⟩).bind fun _ =>
            accessJoin_returns hpos b _ _
    · exact (Tidy.returns _ fun _ hu => ⟨hu, fun _ h => by cases h⟩).bind fun _ =>
        accessJoin_returns hpos b _ _

theorem lag_returns (hpos : S pos) {base k : Nat} (hb : Returns fr S base (child base))
    (hk : Returns fr S k (child k)) : Returns fr S pos (lag child pos base k) := by
  unfold lag
  refine hb.keepsUnique.bind fun _ => hk.keepsUnique.bind fun _ => (Tidy.operand _).bind fun ko => ?_
  dsimp only
  split
  · exact Tidy.ite ((Tidy.pure _).bind fun _ => Tidy.compute_returns hpos _)
      ((Tidy.fail (Q := fun _ c => c.OwnUnique) _).bind fun _ => Tidy.compute_returns hpos _)
  · exact (Tidy.fail (Q := fun _ c => c.OwnUnique) _).bind fun _ => Tidy.compute_returns hpos _

/-- A call computes its value into its own cell; the arguments it evaluates on the way, and the
body's run, give no cell a second owner. -/
theorem call_returns (ht : ∀ c, LiveCell fr (child c)) (hpos : S pos) {name : String} {args : List Nat}
    (hw : ∀ c ∈ args, Within fr S (child c)) (h : ∀ c ∈ args, Returns fr S c (child c)) :
    Returns fr S pos (call child pos name args) := by
  unfold call
  refine Tidy.workspace.bind fun ws => ?_
  split
  · exact (children_keepsUnique h).bind fun _ => Tidy.compute_returns hpos _
  · refine Tidy.ite (Tidy.fail _) (Tidy.ite (Tidy.fail _) ?_)
    split
    · exact Tidy.fail _
    · refine (Tidy.modifyWorkspace _).bind fun _ => (Tidy.ownUnique_of_within (invoke_within ht hw)
        (invoke_tidy ht _ _)).bind fun r => ?_
      refine (Tidy.modifyWorkspace _).bind fun _ => ?_
      split
      · exact Tidy.throw _
      · exact Tidy.compute_returns hpos _

/-- One node: each kind of node returns a cell that it links to and that only positions of `S`
own, once its children do. -/
theorem step_returns (ht : ∀ c, LiveCell fr (child c)) (hpos : S pos)
    (hw : ∀ c, fr.forest.Below pos c → Within fr S (child c))
    (hchild : ∀ c, fr.forest.Below pos c → Returns fr S c (child c)) :
    Returns fr S pos (step child pos) := by
  unfold step
  refine Tidy.read_bind ?_
  dsimp only
  split
  · exact Tidy.throw _
  · rename_i n hn
    have kid : ∀ c ∈ n.kids fr.forest, Returns fr S c (child c) := fun c hc =>
      hchild c (Forest.Below.kid hn hc)
    cases n with
    | num x => exact Tidy.literal_returns hpos _
    | str s => exact Tidy.literal_returns hpos _
    | null => exact Tidy.literal_returns hpos _
    | ident name => exact ident_returns hpos _
    | selector d => exact Tidy.fail _
    | all => exact Tidy.fail _
    | unary op x =>
      exact (kid x (by simp [Node.kids])).keepsUnique.bind fun _ => Tidy.compute_returns hpos _
    | binary op l r =>
      have hl := kid l (by simp [Node.kids])
      have hr := kid r (by simp [Node.kids])
      exact Tidy.ite (logical_returns hpos hl hr)
        (hl.keepsUnique.bind fun _ => hr.keepsUnique.bind fun _ => Tidy.compute_returns hpos _)
    | ternary c a b =>
      exact conditional_returns hpos (kid c (by simp [Node.kids])) (kid a (by simp [Node.kids]))
        (kid b (by simp [Node.kids]))
    | call fn args =>
      exact call_returns ht hpos (fun c hc => hw c (Forest.Below.kid hn hc)) kid
    | matrixLit rows =>
      refine matrixLiteral_returns hpos fun row hrow elems hrow' c hc => hchild c ?_
      exact (Forest.Below.kid hn hrow).trans (Forest.Below.kid hrow' hc)
    | matrixRow elems => exact Tidy.fail _
    | listLit elems => exact listLiteral_returns hpos kid
    | bundleLit pairs => exact bundleLiteral_returns hpos kid
    | arrayLit elems => exact arrayLiteral_returns hpos kid
    | index base args =>
      -- the subscripts are evaluated inside `S`, so they give no cell a second owner
      exact (kid base (by simp [Node.kids])).keepsUnique.bind fun _ =>
        (Tidy.ownUnique_of_within (index_subscripts_within ht hn hw) (subscripts_tidy ht _)).bind
          fun _ => access_returns hpos _ _
    | member base key =>
      refine (kid base (by simp [Node.kids])).keepsUnique.bind fun _ => (Tidy.operand _).bind fun o => ?_
      split
      · exact Tidy.fail _
      · exact Tidy.fail _
      · exact Tidy.fail _
      · exact access_returns hpos _ _
    | range lo hi => exact Tidy.fail _
    | lag base k => exact lag_returns hpos (kid base (by simp [Node.kids])) (kid k (by simp [Node.kids]))
    | ref x => exact Tidy.fail _

end Walk

/-- Evaluating a position returns a cell that it links to and that only positions of its subtree
own. -/
theorem evalNode_returns {fr : Frame} :
    ∀ pos, EvalM.Returns fr (fr.forest.Below pos) pos (evalNode pos) := by
  intro pos
  induction pos using Nat.strongRecOn with
  | ind pos ih =>
    rw [evalNode]
    have ht : ∀ c, EvalM.LiveCell fr (if c < pos then evalNode c else throw Walk.malformed) := by
      intro c
      split
      · exact evalNode_tidy c
      · exact EvalM.Tidy.throw _
    refine Walk.step_returns ht (Forest.Below.refl _ _) (fun c hc => ?_) fun c hc => ?_
    · split
      · exact (evalNode_within c).mono fun p hp => hc.trans hp
      · exact EvalM.Within.throw _
    · split
      · exact (ih c ‹_›).conseq (fun _ h => h) fun _ _ h => h.mono fun p hp => hc.trans hp
      · exact EvalM.Tidy.throw _

/-! ## Operands evaluated one after another -/

/-- **An operand keeps its cell while a disjoint operand is evaluated.** Let no position lie below
both `l` and `r`, and start from consistent cells in which no cell has two owners, as on a
statement's first run. If evaluating `l` returns the cell `a`, then after `r` is evaluated `a` is
still in use and reads as it did when `l` returned it. -/
theorem later_operand_keeps_earlier (fr : Frame) (l r : Nat)
    (hdisj : ∀ p, fr.forest.Below l p → ¬ fr.forest.Below r p) (m : Machine)
    (hm : m.cells.Consistent) (hu : m.cells.OwnUnique) (a : Nat)
    (hl : ((evalNode l).exec fr m).1 = .ok a) :
    ((evalNode r).exec fr ((evalNode l).exec fr m).2).2.cells.Live a ∧
      ∀ ws, ((evalNode r).exec fr ((evalNode l).exec fr m).2).2.cells.read ws a =
        ((evalNode l).exec fr m).2.cells.read ws a := by
  have hret : EvalM.Returns fr (fr.forest.Below l) l (evalNode l) := evalNode_returns l
  obtain ⟨hc, hpost⟩ := hret m hm hu
  have hh := hpost a hl
  have hlr : ¬ fr.forest.Below r l := hdisj l (Forest.Below.refl _ _)
  -- `l` links to its cell, and only positions below `l`, none of them below `r`, own it
  have hheld : ((evalNode l).exec fr m).2.cells.HeldOutside (fr.forest.Below r) a :=
    ⟨⟨l, hlr, hh.linked⟩, fun p hp hown => hdisj p (hh.owned p hown) hp⟩
  obtain ⟨hlinks, hreads⟩ := evalNode_leaves_outside_cells fr r _ hc
  have ht : EvalM.LiveCell fr (evalNode r) := evalNode_tidy r
  have hc' := (ht _ hc trivial).1
  refine ⟨hc'.linked_live l a ?_, fun ws => hreads a hheld ws⟩
  rw [hlinks l hlr]
  exact hh.linked

/-- A position whose node has no children is the whole of its subtree. -/
theorem Forest.Below.eq_of_leaf {f : Forest} {p q : Nat} (hleaf : ∀ n, f.node? p = some n → n.kids f = [])
    (h : f.Below p q) : q = p := by
  rcases Relation.ReflTransGen.cases_head h with rfl | ⟨c, ⟨n, hn, hc⟩, -⟩
  · rfl
  · rw [hleaf n hn] at hc
    cases hc

/-- The two literals of `1 + 2`, evaluated from no cells: the second leaves the first's cell. -/
theorem literals_keep_each_other :
    ((evalNode 0).exec ⟨{ nodes := #[.num 1, .num 2] }, .any, fun ws fn => (ws, fn, .ok .null)⟩
        ⟨default, {}⟩).1 = .ok 0 ∧
      ((evalNode 1).exec ⟨{ nodes := #[.num 1, .num 2] }, .any, fun ws fn => (ws, fn, .ok .null)⟩
        ((evalNode 0).exec ⟨{ nodes := #[.num 1, .num 2] }, .any, fun ws fn => (ws, fn, .ok .null)⟩
          ⟨default, {}⟩).2).2.cells.Live 0 := by
  have hl : ((evalNode 0).exec ⟨{ nodes := #[.num 1, .num 2] }, .any, fun ws fn => (ws, fn, .ok .null)⟩
      ⟨default, {}⟩).1 = .ok 0 := by
    rw [evalNode]
    rfl
  have hleaf : ∀ p, p < 2 → ∀ n, ({ nodes := #[.num 1, .num 2] } : Forest).node? p = some n →
      n.kids { nodes := #[.num 1, .num 2] } = [] := by
    intro p hp n hn
    have : p = 0 ∨ p = 1 := by omega
    rcases this with rfl | rfl <;> cases hn <;> rfl
  refine ⟨hl, (later_operand_keeps_earlier _ 0 1 (fun p h0 h1 => ?_) _ CellStore.Consistent.empty
    CellStore.OwnUnique.empty 0 hl).1⟩
  have e0 := Forest.Below.eq_of_leaf (hleaf 0 (by omega)) h0
  have e1 := Forest.Below.eq_of_leaf (hleaf 1 (by omega)) h1
  omega

end SeriesCalc
