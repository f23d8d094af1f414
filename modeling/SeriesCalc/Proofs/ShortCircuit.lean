import SeriesCalc.Proofs.Cells.Frame
import SeriesCalc.Proofs.Cells.Runs

/-!
# Short-circuit evaluation of `&&` and `||`

A logical node evaluates its left side first and reads its value. A scalar that decides the
result (`Walk.decides?`: known zero under `&&`, known nonzero under `||`) settles the node at
once; any other value lets the right side run, and the two are combined as every operator
combines its operands.

* **`logical_evaluates_right_iff_undecided`**: the right side runs exactly when the left value
  decides nothing. A decided node reads as the decision, which is what combining the left scalar
  with any right scalar gives (`Binary.apply_of_decides`). When the scalar equals the decision
  as a number (any zero under `&&`, a one under `||`) the node shares the left cell, so
  `-0 && b` gives `-0`.
* **`zero_and_series_gives_scalar`**: the decision is a scalar even when the right side is a
  series: `0 && x` gives 0 where combining 0 with the series `x` gives a series of zeros.

The cell lemmas say what a read sees after the two ways a decided node settles:
sharing keeps the shared cell's content (`CellStore.content?_share`), and a value put back
into a cell is what the cell then reads (`CellStore.read_restore_self`).
-/

namespace SeriesCalc

namespace CellStore

variable {s : CellStore}

/-- Sharing a cell leaves what a read of it sees: it gains a count, and the count the position
gives up is released from its old cell, which is the shared one only when that cell keeps a
count more. -/
theorem content?_share (h : s.Consistent) (pos target : Nat) :
    (s.share pos target).content? target = s.content? target := by
  have hcount : (s.modifyCell target fun c => { c with refs := c.refs + 1 }).content? target =
      s.content? target := by
    unfold content?
    rw [cell?_modifyCell, if_pos rfl]
    cases s.cell? target <;> rfl
  have hlinks := links_modifyCell (s := s) target fun c => { c with refs := c.refs + 1 }
  unfold CellStore.share
  split
  · rfl
  · dsimp only
    rcases hl : (s.link pos).target? with _ | old
    · have hv : s.link pos = .vacant := Link.eq_vacant_of_target? hl
      rw [unlink_of_vacant (by rw [link_of_links hlinks]; exact hv)]
      unfold content? at hcount ⊢
      rw [cell?_setLink, cell?_setLink]
      exact hcount
    · rw [unlink_of_target (by rw [link_of_links hlinks]; exact hl)]
      by_cases ho : old = target
      · -- the position held the target itself: the added count is released again
        subst ho
        obtain ⟨c, hc⟩ := Option.isSome_iff_exists.mp (h.linked_live pos old hl)
        rw [release_modifyCell_succ hc (by rw [h.refs_eq _ c hc]; exact linkCount_pos hl)]
        rfl
      · unfold content? at hcount ⊢
        rw [cell?_setLink, cell?_setLink, cell?_release_ne (Ne.symm ho)]
        exact hcount

/-- The cell a position writes its result into stays in use while its value is lent out. -/
theorem live_lend_writable (h : s.Consistent) (pos : Nat) :
    ((s.writable pos).1.lend (s.writable pos).2).1.Live (s.writable pos).2 := by
  rw [live_lend]
  exact (h.writable pos).linked_live pos _ (by rw [link_writable]; rfl)

/-- A cell in use reads, once a value is put back into it, as that value. -/
theorem read_restore_self {id : Nat} (h : s.Live id) (v : Value) (ws : Workspace) :
    (s.restore id v).read ws id = .ok { value := v } := by
  obtain ⟨c, hc⟩ := Option.isSome_iff_exists.mp h
  have hput : (s.modifyCell id fun c => { c with lastKind := v.kind, payload := .owned v }).read ws id =
      .ok { value := v } := by
    unfold CellStore.read
    rw [cell?_modifyCell, if_pos rfl, hc]
    rfl
  unfold restore
  rw [hc]
  dsimp only
  split
  · exact hput
  · split
    · exact hput
    · exact hput

end CellStore

namespace EvalM

variable {fr : Frame} {m : Machine}

theorem share_exec (pos target : Nat) :
    (share pos target).exec fr m = (.ok target, { m with cells := m.cells.share pos target }) :=
  exec_modifyCells _

/-- Writing a fixed value into the position's own cell returns that cell. -/
theorem compute_put_exec (pos : Nat) (v : Value) :
    (compute pos fun _ => OpM.put v).exec fr m =
      (.ok (m.cells.writable pos).2,
        ⟨m.ws, ((m.cells.writable pos).1.lend (m.cells.writable pos).2).1.restore (m.cells.writable pos).2 v⟩) := by
  simp only [compute, takeMachine, exec_bind, exec_read, exec_modifyGet]
  rfl

end EvalM

namespace Walk

open EvalM

/-- What a left side decides for `&&` and `||`: a scalar known to be zero under `&&` gives 0, a
scalar known to be nonzero under `||` gives 1, each with the scalar itself; anything else decides
nothing. -/
def decides? (op : BinaryOp) (v : Value) : Option (Float × Float) :=
  match v with
  | .scalar x =>
    match op, truth? x with
    | .and, some false => some (x, 0)
    | .or, some true => some (x, 1)
    | _, _ => none
  | _ => none

/-- A decision comes from a scalar, and is the one `Kernel.apply` gives whatever the right
operand. -/
theorem decides?_some {op : BinaryOp} {v : Value} {x res : Float} (h : decides? op v = some (x, res)) :
    (op = .and ∨ op = .or) ∧ v = .scalar x ∧ ∀ absorb y, Kernel.apply op absorb x y = (res, none) := by
  unfold decides? at h
  split at h
  · split at h <;> cases h
    · rename_i ht
      exact ⟨.inl rfl, rfl, fun absorb y => by simp only [Kernel.apply, BinaryOp.elementwise, ht]⟩
    · rename_i ht
      exact ⟨.inr rfl, rfl, fun absorb y => by simp only [Kernel.apply, BinaryOp.elementwise, ht]⟩
  · cases h

variable {fr : Frame} {m : Machine} {child : Nat → EvalM Nat}

/-- A run of `l && r` (`l || r`): the left side, then its value; a deciding value settles the
position at once, any other lets the right side run and combines both. -/
theorem logical_exec (pos : Nat) (op : BinaryOp) (l r : Nat) :
    (logical child pos op l r).exec fr m =
      match (child l).exec fr m with
      | (.error e, m1) => (.error e, m1)
      | (.ok a, m1) =>
        match m1.cells.read m1.ws a with
        | .error e => (.error e, m1)
        | .ok o =>
          (match decides? op o.value with
            | some (x, res) =>
              if x == res then share pos a else compute pos fun _ => OpM.put (.scalar res)
            | none => do
              let b ← child r
              compute pos fun env => do Binary.apply env op (← OpM.read env a) (← OpM.read env b)).exec
            fr m1 := by
  unfold logical
  rw [exec_bind]
  rcases (child l).exec fr m with ⟨_ | a, m1⟩
  · rfl
  · dsimp only
    rw [exec_bind, exec_operand]
    rcases m1.cells.read m1.ws a with e | o
    · rfl
    · rfl

end Walk

namespace Binary

/-- The full combination of a deciding left scalar with any right scalar is the decision. -/
theorem apply_of_decides {op : BinaryOp} {a b : Operand} {x res y : Float}
    (h : Walk.decides? op a.value = some (x, res)) (hb : b.value = .scalar y) (env : OpEnv) (s : Scratch) :
    (Binary.apply env op a b).run.run s = (.ok (), { s with cell := .scalar res }) := by
  obtain ⟨hop, ha, hk⟩ := Walk.decides?_some h
  rcases hop with rfl | rfl
  all_goals
    simp only [Binary.apply, ha, hb, BinaryOp.isDot, BinaryOp.isNumeric, BinaryOp.elementwise,
      Bool.false_eq_true, ↓reduceIte, Numeric.scalar, OpM.warned, OpM.put, Kernel.calc, hk, Warned.note]
    rfl

end Binary

open EvalM Walk

variable {fr : Frame} {m : Machine}

/-- A logical node evaluates its children through `evalNode` itself, both lying before it. -/
theorem evalNode_logical_exec {pos l r : Nat} {op : BinaryOp}
    (hnode : fr.forest.node? pos = some (.binary op l r)) (hop : op.isLogical = true)
    (hl : l < pos) (hr : r < pos) :
    (evalNode pos).exec fr m =
      match (evalNode l).exec fr m with
      | (.error e, m1) => (.error e, m1)
      | (.ok a, m1) =>
        match m1.cells.read m1.ws a with
        | .error e => (.error e, m1)
        | .ok o =>
          (match decides? op o.value with
            | some (x, res) =>
              if x == res then share pos a else compute pos fun _ => OpM.put (.scalar res)
            | none => do
              let b ← evalNode r
              compute pos fun env => do Binary.apply env op (← OpM.read env a) (← OpM.read env b)).exec
            fr m1 := by
  rw [evalNode]
  simp only [step, exec_bind, exec_read, hnode, hop, ↓reduceIte]
  rw [logical_exec]
  simp only [hl, hr, ↓reduceIte]

/-- **`&&` and `||` evaluate their right side exactly when the left one decides nothing.** Let
`pos` hold `l && r` (or `l || r`), both before it, and let the left side return the cell `a`,
which reads as `o`. When `o` is a scalar that decides (known zero under `&&`, known nonzero
under `||`), the rest of the run is the decision alone, `r` is never evaluated, and the position
reads as the decision: the left cell itself when the scalar equals it. Combining `o` with any
right scalar gives the same decision. Otherwise the run evaluates `r` and combines both operands
as every operator does. -/
theorem logical_evaluates_right_iff_undecided {pos l r a : Nat} {op : BinaryOp} {m1 : Machine}
    {o : Operand} (hnode : fr.forest.node? pos = some (.binary op l r)) (hop : op.isLogical = true)
    (hl : l < pos) (hr : r < pos) (hm : m.cells.Consistent)
    (ha : (evalNode l).exec fr m = (.ok a, m1)) (ho : m1.cells.read m1.ws a = .ok o) :
    (∀ x res, decides? op o.value = some (x, res) →
      (evalNode pos).exec fr m =
          (if x == res then share pos a else compute pos fun _ => OpM.put (.scalar res)).exec fr m1 ∧
        (∃ id cells, (evalNode pos).exec fr m = (.ok id, ⟨m1.ws, cells⟩) ∧
          cells.read m1.ws id = .ok (if x == res then o else { value := .scalar res })) ∧
        ∀ env b y s, b.value = .scalar y →
          (Binary.apply env op o b).run.run s = (.ok (), { s with cell := .scalar res })) ∧
    (decides? op o.value = none →
      (evalNode pos).exec fr m =
        (do
          let b ← evalNode r
          compute pos fun env => do Binary.apply env op (← OpM.read env a) (← OpM.read env b)).exec
          fr m1) := by
  have hrun := evalNode_logical_exec (m := m) hnode hop hl hr
  rw [ha] at hrun
  dsimp only at hrun
  rw [ho] at hrun
  dsimp only at hrun
  have hm1 : m1.cells.Consistent := by
    have h : ((evalNode l).exec fr m).2.cells.Consistent := ((evalNode_tidy l) m hm trivial).1
    rw [ha] at h
    exact h
  refine ⟨fun x res hd => ?_, fun hd => ?_⟩
  · rw [hd] at hrun
    refine ⟨hrun, ?_, fun env b y s hb => Binary.apply_of_decides hd hb env s⟩
    rw [hrun]
    by_cases hx : (x == res) = true
    · -- the position shares the left cell, which reads as before
      simp only [hx, ↓reduceIte, share_exec]
      exact ⟨a, _, rfl, by rw [CellStore.read_congr (CellStore.content?_share hm1 pos a)]; exact ho⟩
    · -- the position writes the decision into its own cell
      simp only [hx, Bool.false_eq_true, ↓reduceIte]
      rw [compute_put_exec]
      exact ⟨_, _, rfl, CellStore.read_restore_self (CellStore.live_lend_writable hm1 pos) _ _⟩
  · rw [hd] at hrun
    exact hrun

/-- Two observations with the series `x` = 1, 2. -/
def seriesXWs : Workspace :=
  { dataset := { nobs := 2, t2 := 1,
                 series := #[{ name := "const", values := #[1, 1] }, { name := "x", values := #[1, 2] }] } }

/-- `0 && x`. -/
def zeroAndX : Forest := { nodes := #[.num 0, .ident 0, .binary .and 0 1], names := #["x"] }

/-- `0 && x` evaluated as a plain expression. -/
def zeroAndXFrame : Frame := ⟨zeroAndX, .any, fun ws fn => (ws, fn, .ok .null)⟩

/-- The left literal of `0 && x` takes a fresh cell. -/
theorem zeroAndX_left :
    (evalNode 0).exec zeroAndXFrame ⟨seriesXWs, {}⟩ =
      (.ok 0, ⟨seriesXWs, (({} : CellStore).literal 0 (.scalar 0)).1⟩) := by
  rw [evalNode]
  rfl

/-- `0 && x` shares the cell of its left literal; `x` is never evaluated. -/
theorem zeroAndX_shares_left :
    (evalNode 2).exec zeroAndXFrame ⟨seriesXWs, {}⟩ =
      (share 2 0).exec zeroAndXFrame ⟨seriesXWs, (({} : CellStore).literal 0 (.scalar 0)).1⟩ := by
  have hzero : truth? (0 : Float) = some false := by decide +kernel
  have hd : decides? .and (Value.scalar 0) = some (0, 0) := by
    dsimp only [decides?]
    rw [hzero]
  have h := ((logical_evaluates_right_iff_undecided
    (rfl : zeroAndXFrame.forest.node? 2 = some (.binary .and 0 1)) rfl (by decide) (by decide)
    CellStore.Consistent.empty zeroAndX_left
    (rfl : (({} : CellStore).literal 0 (.scalar 0)).1.read seriesXWs 0 = .ok { value := .scalar 0 })).1
    0 0 hd).1
  rwa [if_pos (by decide +kernel)] at h

/-- `0 && x` as a statement. -/
def zeroAndXStmt : Runnable := { stmt := { forest := zeroAndX, rhs := some 2 } }

/-- With `x` a series, `0 && x` gives the scalar 0, while combining 0 with the series `x`
elementwise gives a series. -/
theorem zero_and_series_gives_scalar :
    (zeroAndXStmt.evaluate seriesXWs).2.2.toOption.map Value.kind = some .scalar ∧
      ((Binary.apply { ds := seriesXWs.dataset, target := .any } .and { value := .scalar 0 }
        { value := .series #[1, 2] }).run.run default).2.cell.kind = .series := by
  decide +kernel

end SeriesCalc
