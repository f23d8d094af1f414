import Mathlib
import SeriesCalc.Proofs.Dataset.Labels
import SeriesCalc.Proofs.SeriesConditional
import SeriesCalc.Proofs.SampleReads
import SeriesCalc.Proofs.ShortCircuit
import SeriesCalc.Proofs.Cells.Operands

/-!
# Lags and leads

`x(k)` evaluates the series `x` and the scalar `k`. A whole `k` is taken as a signed 64-bit
offset, saturating beyond that range; anything else (a fraction, NA, an infinity) is a domain
error. Observation `t` of the sample then reads `x` at `t + k`, found by `Dataset.lagSource` in
checked signed 64-bit arithmetic, and NA where there is no such observation or, in a panel, where
it lies in another unit.

* **Sources** (`Dataset.HasSource t k`): observation `t + k` exists and lies in the unit of `t`,
  stated on the integers. For every dataset with fewer than `2^63` observations,
  `lagSource t (Word.clampSigned k)` is that observation exactly when it exists
  (`Dataset.lagSource_clampSigned`), whatever the integer `k`: the 64-bit checks only ever
  refuse offsets that lead outside the dataset.
* **The series** (`Dataset.shifted xs k`): the fill of a lag never fails on a series with one
  value per observation (`Dataset.fillSeriesChecked_lag`), and reads `xs` at the sources over
  the sample and NA elsewhere (`Dataset.getElem?_shifted`).
* **`lag_evaluates_to_shifted_series`**: a lag node whose operands evaluate to a series and a
  scalar gives that shifted series in its own cell, or fails with `lag <k>` when `k` is not
  whole. Reading the series operand once `k` is evaluated needs the two operands' subtrees apart
  and the children before their parent (`Forest.Ordered`), as a statement's nodes are laid out.

`Float.floor` has no model, so no particular float is known to be whole: the whole case is
stated for every whole `k`, and the failing case is shown on `x(NA)` (`lag_by_na_fails`).
-/

namespace SeriesCalc

namespace Word

/-- An integer brought into the signed 64-bit range by saturation. -/
def clampSigned (k : Int) : Int := max (-(half : Int)) (min k ((half : Int) - 1))

end Word

/-- The unit an observation belongs to: its block of periods in a panel, one unit otherwise. -/
def DataShape.unitOf : DataShape → Nat → Nat
  | .panel _ p, t => t / p
  | _, _ => 0

namespace Forest

/-- Every child lies before its parent. -/
def Ordered (f : Forest) : Prop := ∀ p c, f.Child p c → c < p

/-- In an ordered forest a subtree lies at or before its root. -/
theorem Ordered.le_of_below {f : Forest} (ho : f.Ordered) {root p : Nat} (h : f.Below root p) :
    p ≤ root := by
  induction h with
  | refl => exact Nat.le_refl _
  | tail _ hc ih => exact Nat.le_of_lt (Nat.lt_of_lt_of_le (ho _ _ hc) ih)

end Forest

/-- A float that is not a number is not whole. -/
theorem Float.isWhole_of_isNaN {x : Float} (h : x.isNaN = true) : x.isWhole = false := by
  unfold Float.isNaN Float.Model.isNaN at h
  unfold Float.isWhole
  cases hu : x.toModel.unpack <;> simp_all [Float.Model.UnpackedFloat.isNaN]

namespace Dataset

variable {ds : Dataset} {t : Nat} {xs : Array Float}

/-! ## Where a lag reads -/

/-- Observation `t + k` exists and lies in the unit of `t`. -/
def HasSource (ds : Dataset) (t : Nat) (k : Int) : Prop :=
  0 ≤ (t : Int) + k ∧ (t : Int) + k < ds.nobs ∧
    ds.shape.unitOf ((t : Int) + k).toNat = ds.shape.unitOf t

instance (ds : Dataset) (t : Nat) (k : Int) : Decidable (ds.HasSource t k) :=
  inferInstanceAs (Decidable (_ ∧ _ ∧ _))

/-- The 64-bit source of an observation is the integer one, for every integer offset once it is
saturated: an offset that leaves the signed range, or a sum that does, leads outside the
dataset anyway. -/
theorem lagSource_clampSigned (hwf : ds.WellFormed) (hn : ds.nobs < Word.half) (ht : t < ds.nobs)
    (k : Int) :
    ds.lagSource t (Word.clampSigned k) =
      if ds.HasSource t k then some ((t : Int) + k).toNat else none := by
  rw [Word.half_eq] at hn
  unfold lagSource Word.clampSigned Word.fitsSigned
  rw [Word.half_eq]
  dsimp only
  by_cases hin : 0 ≤ (t : Int) + k ∧ (t : Int) + k < ds.nobs
  · -- an offset to an observation is in range, so saturation leaves it alone
    have hc : max (-((9223372036854775808 : Nat) : Int)) (min k ((9223372036854775808 : Nat) - 1)) = k := by
      omega
    rw [hc, if_neg (by simp; omega), if_neg (by simp; omega)]
    split
    · rename_i u p hs
      have hp0 := hwf.periods u p hs (by omega)
      by_cases hunit : ((t : Int) + k).toNat / p = t / p
      · have hsrc : ds.HasSource t k := ⟨hin.1, hin.2, by simp only [hs, DataShape.unitOf, hunit]⟩
        rw [if_pos hsrc, if_neg (by simp; omega)]
      · have hsrc : ¬ ds.HasSource t k := fun h => hunit (by simpa [hs, DataShape.unitOf] using h.2.2)
        rw [if_neg hsrc, if_pos (by simp [hunit])]
    · rename_i hs
      have hunit : ds.shape.unitOf ((t : Int) + k).toNat = ds.shape.unitOf t := by
        unfold DataShape.unitOf
        split
        · rename_i u p heq
          exact absurd heq (hs u p)
        · rfl
      rw [if_pos (show ds.HasSource t k from ⟨hin.1, hin.2, hunit⟩)]
  · -- no observation there: either a 64-bit check or the range check refuses it
    rw [if_neg (show ¬ ds.HasSource t k from fun h => hin ⟨h.1, h.2.1⟩)]
    split
    · rfl
    · rw [if_pos]
      simp only [Bool.or_eq_true, decide_eq_true_eq]
      omega

/-! ## The shifted series -/

/-- The series `x(k)`: an observation of the sample reads `xs` at `t + k` when that observation
exists in the unit of `t`, and NA otherwise; observations outside the sample are NA. -/
def shifted (ds : Dataset) (xs : Array Float) (k : Int) : Array Float :=
  fillSeriesPure ds fun t => if ds.HasSource t k then xs.getD ((t : Int) + k).toNat NA else NA

theorem getElem?_shifted (ds : Dataset) (xs : Array Float) (k : Int) (t : Nat) :
    (ds.shifted xs k)[t]? =
      if t < ds.nobs then
        some (if t ∈ ds.sampleRange ∧ ds.HasSource t k then xs.getD ((t : Int) + k).toNat NA else NA)
      else none := by
  rw [shifted, getElem?_fillSeriesPure]
  by_cases hs : t ∈ ds.sampleRange <;> by_cases hk : ds.HasSource t k <;> simp [hs, hk]

/-- A lag of one period in a panel of two units of two periods: the first period of each unit
has no source. -/
example :
    (({ nobs := 4, t2 := 3, shape := .panel 2 2, series := #[] } : Dataset).shifted
      #[1, 2, 3, 4] (-1)).map Float.isNaN = #[true, false, true, false] := by
  decide +kernel

end Dataset

/-! ## Filling a series that cannot fail -/

theorem foldlM_set_eq_ok {f : Nat → Except Fault Float} {g : Nat → Float} :
    ∀ (l : List Nat) (a : Array Float), (∀ t ∈ l, f t = .ok (g t)) →
      l.foldlM (fun acc t => do return acc.set! t (← f t)) a =
        .ok (l.foldl (fun acc t => acc.set! t (g t)) a)
  | [], _, _ => rfl
  | t :: l, a, h => by
    simp only [List.foldlM_cons, List.foldl_cons, h t List.mem_cons_self]
    exact foldlM_set_eq_ok l _ fun t' ht' => h t' (List.mem_cons_of_mem t ht')

/-- A fill whose every observation of the sample succeeds is the plain fill. -/
theorem fillSeriesChecked_eq_ok {ds : Dataset} {f : Nat → Except Fault Float} {g : Nat → Float}
    (h : ∀ t ∈ ds.sampleRange, f t = .ok (g t)) : fillSeriesChecked ds f = .ok (fillSeriesPure ds g) :=
  foldlM_set_eq_ok _ _ h

namespace Dataset

variable {ds : Dataset} {xs : Array Float}

/-- The fill a lag computes is the shifted series, for every integer that saturates to the
offset. -/
theorem fillSeriesChecked_lag (hwf : ds.WellFormed) (hn : ds.nobs < Word.half)
    (hsize : xs.size = ds.nobs) (k : Int) {f : Nat → Except Fault Float}
    (hf : ∀ t, f t = (ds.lagSource t (Word.clampSigned k)).elim (.ok NA) (storedAt xs)) :
    fillSeriesChecked ds f = .ok (ds.shifted xs k) := by
  refine fillSeriesChecked_eq_ok fun t ht => ?_
  have htn : t < ds.nobs := by
    obtain ⟨hne, -, h2⟩ := mem_sampleRange.mp ht
    have := (hwf.sample (Nat.pos_of_ne_zero hne)).2
    omega
  rw [hf, lagSource_clampSigned hwf hn htn]
  by_cases hs : ds.HasSource t k
  · -- a source is an observation, so the series stores it
    have hsrc : ((t : Int) + k).toNat < xs.size := by
      have := hs.2.1
      omega
    simp only [if_pos hs, Option.elim, storedAt, dif_pos hsrc]
    rfl
  · simp only [if_neg hs, Option.elim]

end Dataset

/-! ## The lag node -/

namespace CellStore

variable {s : CellStore}

/-- A cell held from outside a position reads the same while that position's cell is lent. -/
theorem read_lend_writable (h : s.Consistent) {pos id : Nat} (hx : s.HeldOutside (· = pos) id)
    (ws : Workspace) :
    ((s.writable pos).1.lend (s.writable pos).2).1.read ws id = s.read ws id :=
  read_congr (((Confined.writable (S := (· = pos)) h rfl).trans
    (Confined.lend rfl (link_writable pos))).held id hx).1 ws

end CellStore

theorem OpM.lift_ok {α : Type} (a : α) : OpM.lift (.ok a : Except EvalError α) = pure a := rfl

namespace EvalM

variable {fr : Frame} {m : Machine}

/-- An operator that ends without a warning when run in the position's environment on the lent
cell puts its value into the position's own cell and returns that cell. -/
theorem compute_exec_ok {pos : Nat} {op : OpEnv → OpM Unit} {v : Value}
    (h : ∀ env : OpEnv, env.ds = m.ws.dataset →
      env.read = ((m.cells.writable pos).1.lend (m.cells.writable pos).2).1.read m.ws →
      ∀ s : Scratch, s.log = m.ws.warnings → (op env).run.run s = (.ok (), { s with cell := v })) :
    (compute pos op).exec fr m =
      (.ok (m.cells.writable pos).2,
        ⟨m.ws, ((m.cells.writable pos).1.lend (m.cells.writable pos).2).1.restore
          (m.cells.writable pos).2 v⟩) := by
  simp only [compute, takeMachine, exec_bind, exec_read, exec_modifyGet]
  rw [h _ rfl rfl _ rfl]
  rfl

end EvalM

open EvalM Walk

variable {fr : Frame}

/-- One level of the walk at a lag node. -/
theorem evalNode_lag_exec {pos base k : Nat} {m : Machine}
    (hnode : fr.forest.node? pos = some (.lag base k)) :
    (evalNode pos).exec fr m =
      (lag (fun c => if c < pos then evalNode c else throw malformed) pos base k).exec fr m := by
  rw [evalNode]
  simp only [step, exec_bind, exec_read, hnode]

/-- **A lag gives the series shifted within units.** Let `pos` hold `x(k)` in an ordered forest
where no position lies below both operands, and let the walk, from consistent cells with no
cell of two owners, evaluate `x` and then `k`, the series operand reading as `xs`, one value per
observation, and the lag as the scalar `x`. When `x` is whole, the node returns its own cell
holding `xs` shifted by every integer `k'` that saturates to the offset `x` gives (`x` itself as
an integer): over the sample, observation `t` reads `xs` at `t + k'` when that observation
exists in the unit of `t`, and NA otherwise. When `x` is not whole, NA among them, the node
fails with a domain error naming it and changes nothing more. -/
theorem lag_evaluates_to_shifted_series {pos base k b kc : Nat} {m m1 m2 : Machine}
    {o ko : Operand} {xs : Array Float} {x : Float}
    (hord : fr.forest.Ordered) (hnode : fr.forest.node? pos = some (.lag base k))
    (hdisj : ∀ p, fr.forest.Below base p → ¬ fr.forest.Below k p)
    (hm : m.cells.Consistent) (hu : m.cells.OwnUnique)
    (hbase : (evalNode base).exec fr m = (.ok b, m1))
    (hkrun : (evalNode k).exec fr m1 = (.ok kc, m2))
    (hko : m2.cells.read m2.ws kc = .ok ko) (hx : ko.scalar? = some x)
    (ho : m2.cells.read m2.ws b = .ok o) (hxs : o.value = .series xs)
    (hwf : m2.ws.dataset.WellFormed) (hn : m2.ws.dataset.nobs < Word.half)
    (hsize : xs.size = m2.ws.dataset.nobs) :
    (x.isWhole = true → ∀ k' : Int, x.toInt64Sat = Word.clampSigned k' →
      ∃ id cells, (evalNode pos).exec fr m = (.ok id, ⟨m2.ws, cells⟩) ∧
        cells.read m2.ws id = .ok { value := .series (m2.ws.dataset.shifted xs k') }) ∧
    (x.isWhole = false →
      (evalNode pos).exec fr m =
        (.error (Fault.domain ("lag " ++ Decimal.Float.positional x) : EvalError), m2)) := by
  have hb : base < pos := hord pos base ⟨_, hnode, by simp [Node.kids]⟩
  have hk : k < pos := hord pos k ⟨_, hnode, by simp [Node.kids]⟩
  have hrun := evalNode_lag_exec (m := m) hnode
  unfold lag at hrun
  simp only [exec_bind, hb, hk, ↓reduceIte, hbase, hkrun, exec_operand, hko, hx] at hrun
  -- the series operand's cell is still held from outside the lag's position when it is read
  have hret := (evalNode_returns base : EvalM.Returns fr (fr.forest.Below base) base (evalNode base)) m hm hu
  rw [hbase] at hret
  obtain ⟨hc1, hpost⟩ := hret
  have hh : m1.cells.Holds (fr.forest.Below base) base b := hpost b rfl
  have hc2 : m2.cells.Consistent := by
    have h := ((evalNode_tidy k : EvalM.LiveCell fr (evalNode k)) m1 hc1 trivial).1
    rw [hkrun] at h
    exact h
  have hlinks : ∀ q, ¬ fr.forest.Below k q → m2.cells.link q = m1.cells.link q := by
    intro q hq
    have h := (evalNode_leaves_outside_cells fr k m1 hc1).1 q hq
    rw [hkrun] at h
    exact h
  have hpk : ¬ fr.forest.Below k pos := fun h => absurd (hord.le_of_below h) (by omega)
  have hpb : ¬ fr.forest.Below base pos := fun h => absurd (hord.le_of_below h) (by omega)
  have hheld : m2.cells.HeldOutside (· = pos) b := by
    refine ⟨⟨base, Nat.ne_of_lt hb, ?_⟩, fun p hp hown => ?_⟩
    · rw [hlinks base (hdisj base (Forest.Below.refl _ _))]
      exact hh.linked
    · subst hp
      rw [hlinks p hpk] at hown
      exact hpb (hh.owned p hown)
  have hread := CellStore.read_lend_writable hc2 hheld m2.ws
  rw [ho] at hread
  refine ⟨fun hw k' hk' => ?_, fun hw => ?_⟩
  · rw [if_pos hw] at hrun
    simp only [exec_bind, exec_pure] at hrun
    rw [hk'] at hrun
    refine ⟨_, _, hrun.trans (compute_exec_ok (v := .series (m2.ws.dataset.shifted xs k')) ?_), ?_⟩
    · -- the operator reads the series, fills it from the sources and puts it in its cell
      intro env hds hrd sc _
      simp only [OpM.read, hrd, hread, OpM.lift_ok, pure_bind, hxs, hds]
      rw [Dataset.fillSeriesChecked_lag hwf hn hsize k' ?_]
      · rfl
      · intro t
        cases m2.ws.dataset.lagSource t (Word.clampSigned k') <;> rfl
    · exact CellStore.read_restore_self (CellStore.live_lend_writable hc2 pos) _ _
  · rw [if_neg (by simp [hw])] at hrun
    simp only [exec_bind, exec_fail] at hrun
    exact hrun

/-- `x(NA)`. -/
def xLagNA : Forest := { nodes := #[.ident 0, .num NA, .lag 0 1], names := #["x"] }

/-- `x(NA)` evaluated as a plain expression. -/
def xLagNAFrame : Frame := ⟨xLagNA, .any, fun ws fn => (ws, fn, .ok .null)⟩

theorem xLagNA_ordered : xLagNA.Ordered := by
  intro p c hpc
  obtain ⟨n, hn, hc⟩ := hpc
  rcases p with _ | _ | _ | p
  · obtain rfl : n = .ident 0 := (Option.some.inj hn).symm
    simp [Node.kids] at hc
  · obtain rfl : n = .num NA := (Option.some.inj hn).symm
    simp [Node.kids] at hc
  · obtain rfl : n = .lag 0 1 := (Option.some.inj hn).symm
    simp only [Node.kids, List.mem_cons, List.not_mem_nil, or_false] at hc
    omega
  · simp [xLagNA, Forest.node?] at hn

theorem seriesXWs_wellFormed : seriesXWs.dataset.WellFormed where
  sizes := by simp [seriesXWs]
  const := ⟨_, rfl, rfl, fun x hx => by simp [seriesXWs] at hx; exact hx⟩
  names_nodup := by decide
  markers := by simp [seriesXWs]
  sample := fun _ => by decide
  sample_empty := fun h => by simp [seriesXWs] at h
  periods := fun u p h => by simp [seriesXWs] at h

/-- `x(NA)` with `x` = 1, 2 fails with the domain error `lag NaN`, after binding `x` and
writing the literal. -/
theorem lag_by_na_fails :
    (evalNode 2).exec xLagNAFrame ⟨seriesXWs, {}⟩ =
      (.error (Fault.domain ("lag " ++ Decimal.Float.positional NA) : EvalError),
        ⟨seriesXWs, ((({} : CellStore).bind 0 (.series 1) .series .leaf).1.literal 1 (.scalar NA)).1⟩) := by
  have hbase : (evalNode 0).exec xLagNAFrame ⟨seriesXWs, {}⟩ =
      (.ok (({} : CellStore).bind 0 (.series 1) .series .leaf).2,
        ⟨seriesXWs, (({} : CellStore).bind 0 (.series 1) .series .leaf).1⟩) := by
    have hv : seriesXWs.vars.lookup "x" = none := by decide +kernel
    have hx : seriesXWs.dataset.lookup "x" = some 1 := by decide +kernel
    rw [evalNode]
    show (ident 0 "x").exec xLagNAFrame ⟨seriesXWs, {}⟩ = _
    simp only [ident, exec_bind, exec_workspace, hv, hx]
    rfl
  have hk : (evalNode 1).exec xLagNAFrame ⟨seriesXWs, (({} : CellStore).bind 0 (.series 1) .series .leaf).1⟩ =
      (.ok ((({} : CellStore).bind 0 (.series 1) .series .leaf).1.literal 1 (.scalar NA)).2,
        ⟨seriesXWs, ((({} : CellStore).bind 0 (.series 1) .series .leaf).1.literal 1 (.scalar NA)).1⟩) := by
    rw [evalNode]
    rfl
  have hleaf : ∀ p, p < 2 → ∀ n, xLagNA.node? p = some n → n.kids xLagNA = [] := by
    intro p hp n hn
    have : p = 0 ∨ p = 1 := by omega
    rcases this with rfl | rfl <;> cases hn <;> rfl
  have hdisj : ∀ p, xLagNA.Below 0 p → ¬ xLagNA.Below 1 p := by
    intro p h0 h1
    have e0 := Forest.Below.eq_of_leaf (hleaf 0 (by omega)) h0
    have e1 := Forest.Below.eq_of_leaf (hleaf 1 (by omega)) h1
    omega
  have hna : NA.isWhole = false := Float.isWhole_of_isNaN (by decide +kernel)
  exact (lag_evaluates_to_shifted_series xLagNA_ordered rfl hdisj CellStore.Consistent.empty
    CellStore.OwnUnique.empty hbase hk rfl rfl rfl rfl seriesXWs_wellFormed (by decide) rfl).2 hna

end SeriesCalc
