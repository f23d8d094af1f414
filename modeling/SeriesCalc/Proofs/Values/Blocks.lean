import SeriesCalc.Proofs.Values.Shapes
import SeriesCalc.Proofs.Write

/-!
# A block assignment touches exactly its selection

`M[sel] op= B` resolves the subscripts against the shape of `M` (`Selection.resolve`), builds the
block to write (`B` as a matrix, or the selection of `M` combined with `B` by the operator's
binary counterpart) and splices it in (`Selection.splice`). `M` may sit in a variable directly or
below any nesting of bundle members and array elements; the write rebuilds each enclosing
container with the new value in place of the old one (`Assign.Path`).

Entries are compared as complex numbers (`Complex.Agrees`): a real matrix stores a written
entry whose imaginary part compares equal to zero as its real part alone, and a complex matrix
whose imaginary parts all compare equal to zero turns real.

* `Matrix.elemComplex_setAt_self`, `elemComplex_setAt_ne`: one write sets its entry and no other;
  `elemComplex_foldl_setAt` does the same for a run of writes at distinct positions.
* `Selection.splice_spliced`: a splice at distinct positions sets each selected entry to its entry
  of the block, in selection order, and keeps every other entry (`Selection.Spliced`).
* `Assign.writeBlock_spec`: a block write resolves the selection, builds the block
  (`Assign.BlockOf`) and splices it in.
* `Assign.writeInto_path`: a write below some steps rebuilds the enclosing containers around the
  new value; `follow_replaceAt_ne` keeps every other member and element as it was, and
  `Path.rebuild_reads` finds the new value along the same steps.
* **`Assign.block_assign_touches_selection`**: the whole assignment, including the failure case.
-/

namespace SeriesCalc

namespace Complex

/-- `w` is `z` as a complex number: the same real part, and the same imaginary part, or `0` where
`z`'s imaginary part compares equal to zero. -/
def Agrees (w z : Complex) : Prop := w.re = z.re ∧ (w.im = z.im ∨ (w.im = 0 ∧ (z.im == 0) = true))

theorem Agrees.refl (z : Complex) : z.Agrees z := ⟨rfl, .inl rfl⟩

/-- Dropping an imaginary part that compares equal to zero keeps the complex number. -/
theorem Agrees.ofReal {w z : Complex} (h : w.Agrees z) (hw : (w.im == 0) = true) :
    (Complex.ofReal w.re).Agrees z := by
  refine ⟨h.1, .inr ⟨rfl, ?_⟩⟩
  rcases h.2 with him | ⟨-, hz⟩
  · rwa [← him]
  · exact hz

end Complex

namespace Matrix

/-- A write sets its entry, as a complex number. -/
theorem elemComplex_setAt_self {m : Matrix} {k : Nat} (z : Complex) (hk : k < m.entries.size) :
    ((m.setAt k z).elemComplex k).Agrees z := by
  obtain ⟨r, c, e, sp⟩ := m
  cases e with
  | real xs =>
    simp only [Entries.size] at hk
    cases hz : (z.im != 0)
    · -- a real matrix keeps the real part of an entry whose imaginary part is zero
      simp [setAt, hz, elemComplex, Complex.ofReal, Array.getD_eq_getD_getElem?, hk, Complex.Agrees]
      exact .inr (by simpa [bne] using hz)
    · simp [setAt, hz, promote, elemComplex, Array.getD_eq_getD_getElem?, hk, Complex.Agrees]
  | complex zs =>
    simp only [Entries.size] at hk
    cases hz : (z.im != 0) <;>
      simp [setAt, hz, promote, elemComplex, Array.getD_eq_getD_getElem?, hk, Complex.Agrees]

/-- A write leaves every other stored entry as it was, even when it makes the matrix complex. -/
theorem elemComplex_setAt_ne {m : Matrix} {j k : Nat} (z : Complex) (hjk : j ≠ k)
    (hj : j < m.entries.size) : (m.setAt k z).elemComplex j = m.elemComplex j := by
  obtain ⟨r, c, e, sp⟩ := m
  cases e with
  | real xs =>
    simp only [Entries.size] at hj
    cases hz : (z.im != 0) <;>
      simp [setAt, hz, promote, elemComplex, Array.getD_eq_getD_getElem?, hj, Ne.symm hjk]
  | complex zs =>
    cases hz : (z.im != 0) <;>
      simp [setAt, hz, promote, elemComplex, Array.getD_eq_getD_getElem?, Ne.symm hjk]

/-- Writes at distinct positions, each computed from the entry it replaces: every written entry
that is stored holds its new value, and every other entry is as it was. -/
theorem elemComplex_foldl_setAt {α : Type} (pos : α → Nat) (val : α → Complex → Complex) :
    ∀ (ps : List α) (m : Matrix), (ps.map pos).Nodup →
      (∀ j < m.entries.size, j ∉ ps.map pos →
        (ps.foldl (fun m p => m.setAt (pos p) (val p (m.elemComplex (pos p)))) m).elemComplex j =
          m.elemComplex j) ∧
      ∀ p ∈ ps, pos p < m.entries.size →
        ((ps.foldl (fun m p => m.setAt (pos p) (val p (m.elemComplex (pos p)))) m).elemComplex
          (pos p)).Agrees (val p (m.elemComplex (pos p)))
  | [], _, _ => ⟨fun _ _ _ => rfl, fun _ h => absurd h List.not_mem_nil⟩
  | p :: ps, m, hnd => by
    rw [List.map_cons, List.nodup_cons] at hnd
    obtain ⟨hp, hnd⟩ := hnd
    have hsize := (sameLayout_setAt m (pos p) (val p (m.elemComplex (pos p)))).size
    obtain ⟨hframe, hset⟩ := elemComplex_foldl_setAt pos val ps _ hnd
    rw [List.foldl_cons]
    refine ⟨fun j hj hjn => ?_, fun q hq hqs => ?_⟩
    · rw [List.map_cons, List.mem_cons, not_or] at hjn
      rw [hframe j (hsize ▸ hj) hjn.2, elemComplex_setAt_ne _ hjn.1 hj]
    · rcases List.mem_cons.mp hq with rfl | hq
      · -- the first write: no later write is at its position
        rw [hframe _ (hsize ▸ hqs) hp]
        exact elemComplex_setAt_self _ hqs
      · have hne : pos q ≠ pos p := fun h => hp (h ▸ List.mem_map_of_mem hq)
        have hq' := hset q hq (hsize ▸ hqs)
        rwa [elemComplex_setAt_ne _ hne hqs] at hq'

/-- Turning a matrix real keeps every entry as a complex number. -/
theorem elemComplex_demoteIfReal {m : Matrix} {j : Nat} (hj : j < m.entries.size) {z : Complex}
    (h : (m.elemComplex j).Agrees z) : (m.demoteIfReal.elemComplex j).Agrees z := by
  obtain ⟨r, c, e, sp⟩ := m
  cases e with
  | real xs => exact h
  | complex zs =>
    simp only [Entries.size] at hj
    simp only [demoteIfReal]
    split
    · -- every imaginary part compares equal to zero, this one too
      rename_i hall
      have him : (zs[j].im == 0) = true := (Array.all_eq_true.mp hall) j hj
      simp only [elemComplex, Array.getD_eq_getD_getElem?, Array.getElem?_map, getElem?_pos zs j hj,
        Option.map_some, Option.getD_some] at h ⊢
      exact h.ofReal him
    · exact h

/-- Rewriting every position of the shape from the entry it holds, then turning the matrix real
where it can: every rewritten stored entry holds its new value, every stored entry past the
shape its old one. -/
theorem elemComplex_rewriteAll (val : Nat → Complex → Complex) (m : Matrix) :
    (∀ j < m.entries.size, m.size ≤ j →
      ((((List.range m.size).foldl (fun m k => m.setAt k (val k (m.elemComplex k))) m).demoteIfReal
        ).elemComplex j).Agrees (m.elemComplex j)) ∧
    ∀ k < m.entries.size, k < m.size →
      ((((List.range m.size).foldl (fun m k => m.setAt k (val k (m.elemComplex k))) m).demoteIfReal
        ).elemComplex k).Agrees (val k (m.elemComplex k)) := by
  have hfold := elemComplex_foldl_setAt id val (List.range m.size) m (by simpa using List.nodup_range)
  simp only [List.map_id, id_eq] at hfold
  have hsize : ∀ j, j < m.entries.size →
      j < ((List.range m.size).foldl (fun m k => m.setAt k (val k (m.elemComplex k))) m).entries.size :=
    fun j hj => by
      rw [(SameLayout.foldl (f := fun o k => o.setAt k (val k (o.elemComplex k)))
        (fun o k => sameLayout_setAt o _ _) _ m).size]
      exact hj
  refine ⟨fun j hj hle => elemComplex_demoteIfReal (hsize j hj) ?_, fun k hk hks =>
    elemComplex_demoteIfReal (hsize k hk) (hfold.2 k (by simpa using hks) hk)⟩
  rw [hfold.1 j hj (by simpa using hle)]
  exact .refl _

end Matrix

namespace Selection

/-- No position is selected twice. -/
def Distinct : Selection → Prop
  | .block offsets .. => offsets.Nodup
  | .part _ => True

/-- The entry a block gives to the `k`-th selected position: its `k`-th entry, or its one entry
when it is `1 × 1`. -/
def blockIndex (block : Matrix) (k : Nat) : Nat := if block.isScalar then 0 else k

/-- What splicing `block` into `m` at `sel` leaves in `m'`: the same layout; for a block of
positions, every selected position stored and set, in selection order, to its entry of the
block, and every other entry as it was; for the real or imaginary parts, that part of every
entry set to its entry of the block and the other part kept. -/
def Spliced (m : Matrix) (sel : Selection) (block m' : Matrix) : Prop :=
  Matrix.SameLayout m m' ∧
  match sel with
  | .block offsets _ _ _ =>
    (∀ d ∈ offsets, d < m.entries.size) ∧
    (∀ j < m.entries.size, j ∉ offsets → m'.elemComplex j = m.elemComplex j) ∧
    ∀ k (hk : k < offsets.length),
      (m'.elemComplex offsets[k]).Agrees (block.elemComplex (blockIndex block k))
  | .part which =>
    (∀ j < m.entries.size, m.size ≤ j → (m'.elemComplex j).Agrees (m.elemComplex j)) ∧
    ∀ k < m.entries.size, k < m.size →
      (m'.elemComplex k).Agrees (match which with
        | .real => ⟨block.elem (blockIndex block k), (m.elemComplex k).im⟩
        | .imag => ⟨(m.elemComplex k).re, block.elem (blockIndex block k)⟩)

/-- A splice that returns writes the selected positions and no others. -/
theorem splice_spliced {m block m' : Matrix} {sel : Selection} (h : splice m sel block = .ok m')
    (hd : sel.Distinct) : Spliced m sel block m' := by
  refine ⟨splice_sameLayout h, ?_⟩
  unfold splice at h
  cases sel with
  | part which =>
    dsimp only at h ⊢
    split at h
    · cases h
    · cases h
      -- every position is rewritten once, from the entry it holds, and the result turned real
      cases which with
      | real =>
        exact Matrix.elemComplex_rewriteAll (fun k z => ⟨block.elem (blockIndex block k), z.im⟩) m
      | imag =>
        exact Matrix.elemComplex_rewriteAll (fun k z => ⟨z.re, block.elem (blockIndex block k)⟩) m
  | block offsets rows cols single =>
    dsimp only at h hd ⊢
    split at h
    · cases h
    · split at h
      · cases h
      · rename_i hover
        cases h
        -- no selected position is past the stored entries
        have hlt : ∀ d ∈ offsets, d < m.entries.size := by
          intro d hd'
          have hnone : offsets.find? (· ≥ m.entries.size) = none := by
            simp only [overrun] at hover
            cases hf : offsets.find? (· ≥ m.entries.size) with
            | none => rfl
            | some o => exact absurd (by simp [hf]) (hover ⟨m.entries.size, o⟩)
          rw [List.find?_eq_none] at hnone
          simpa using hnone d hd'
        have hfold := Matrix.elemComplex_foldl_setAt Prod.fst
          (fun p _ => block.elemComplex (blockIndex block p.2)) offsets.zipIdx m
          (by rw [List.zipIdx_map_fst]; exact hd)
        rw [List.zipIdx_map_fst] at hfold
        refine ⟨hlt, hfold.1, fun k hk => ?_⟩
        have hmem : (offsets[k], k) ∈ offsets.zipIdx := by
          rw [List.mem_zipIdx_iff_getElem?]
          simp [hk]
        exact hfold.2 _ hmem (hlt _ (List.getElem_mem hk))

end Selection

namespace Members

theorem get?_map_set_ne (ms : Members) {key k' : String} (v : Value) (h : k' ≠ key) :
    Members.get? (ms.map fun (k, w) => if k == key then (k, v) else (k, w)) k' = ms.get? k' := by
  induction ms with
  | nil => rfl
  | cons e ms ih =>
    obtain ⟨k, w⟩ := e
    by_cases hk : k = k'
    · -- the first member is the one looked up, which is not the one set
      subst hk
      simp [Members.get?, h]
    · have hkk : (k == k') = false := by simpa using hk
      have hk1 : ((if k == key then (k, v) else (k, w)).1 == k') = false := by
        split <;> exact hkk
      simp only [Members.get?, List.map_cons] at ih ⊢
      rw [List.find?_cons, List.find?_cons, hk1, hkk]
      exact ih

theorem get?_map_set_self (ms : Members) {key : String} (v : Value) (h : Members.contains ms key = true) :
    Members.get? (ms.map fun (k, w) => if k == key then (k, v) else (k, w)) key = some v := by
  induction ms with
  | nil => cases h
  | cons e ms ih =>
    obtain ⟨k, w⟩ := e
    by_cases hk : k = key
    · subst hk
      simp [Members.get?]
    · have hkk : (k == key) = false := by simpa using hk
      have htail : Members.contains ms key = true := by
        simpa [Members.contains, hk] using h
      simp only [Members.get?, List.map_cons] at ih ⊢
      rw [List.find?_cons]
      simp only [hkk, Bool.false_eq_true, if_false]
      exact ih htail

theorem get?_insert_ne (ms : Members) {key k' : String} (v : Value) (h : k' ≠ key) :
    (Members.insert ms key v).1.get? k' = ms.get? k' := by
  unfold Members.insert
  split
  · exact get?_map_set_ne ms v h
  · simp [Members.get?, List.find?_append, Ne.symm h]

theorem get?_insert_self (ms : Members) (key : String) (v : Value) :
    (Members.insert ms key v).1.get? key = some v := by
  unfold Members.insert
  split
  · rename_i hc
    exact get?_map_set_self ms v hc
  · rename_i hc
    have hany : ms.any (·.1 == key) = false := Bool.eq_false_iff.mpr hc
    have hnone : ms.find? (·.1 == key) = none := by
      rw [List.find?_eq_none]
      intro x hx
      simpa using List.any_eq_false.mp hany x hx
    simp [Members.get?, List.find?_append, hnone]

end Members

namespace Assign

open WriteM

/-- The block `M[sel] op= rhs` splices into `m`: for `=` and `fill`, the right-hand side as a
matrix (a scalar for `fill`); for an inflected operator, the selection of `m`, which must be
stored, combined with the right-hand side by the operator's binary counterpart, a scalar
result taken as a `1 × 1` matrix. -/
def BlockOf (m : Matrix) (sel : Selection) (op : AssignOp) (rhs : Operand) (t : Target)
    (ws : Workspace) (block : Matrix) : Prop :=
  match op.binary? with
  | none => ((op == .fill) = true → rhs.isScalarLike = true) ∧ asMatrix? rhs t.ds = .ok (some block)
  | some bop =>
    sel.overrun m.entries.size = none ∧
    ∃ out, ((operate .matrix fun env =>
        Binary.apply env bop { value := .matrix (Selection.extract m sel) } rhs).exec ws).1 = .ok out ∧
      (out = .matrix block ∨ ∃ x, out = .scalar x ∧ block = Matrix.ofScalar x)

/-- A block write that returns resolved the selection, built the block and spliced it in. -/
theorem writeBlock_spec {m m' : Matrix} {args : List Subscript} {op : AssignOp} {rhs : Operand}
    {t : Target} {ws : Workspace}
    (h : ((writeBlock m args op rhs t).exec ws).1 = .ok m') :
    ∃ sel block, Selection.resolve args m.shape = .ok sel ∧ BlockOf m sel op rhs t ws block ∧
      Selection.splice m sel block = .ok m' := by
  unfold writeBlock at h
  simp only [exec_bind, exec_lift] at h
  cases hsel : Selection.resolve args m.shape with
  | error e => rw [hsel] at h; cases h
  | ok sel =>
    rw [hsel] at h
    dsimp only at h
    refine ⟨sel, ?_⟩
    unfold BlockOf
    cases hop : op.binary? with
    | none =>
      rw [hop] at h
      dsimp only at h
      -- `fill` refuses a right-hand side that is not a scalar before anything else
      have hfill : (op == .fill) = true → rhs.isScalarLike = true := by
        intro hf
        cases hs : rhs.isScalarLike
        · simp [hf, hs, exec_bind] at h
        · rfl
      have hfill' : (op == .fill && !rhs.isScalarLike) = false := by
        cases hf : (op == .fill)
        · rfl
        · simp [hfill hf]
      simp only [hfill', Bool.false_eq_true, if_false, exec_bind, exec_lift] at h
      cases hb : asMatrix? rhs t.ds with
      | error f => simp [hb, Fault.raise] at h
      | ok b =>
        cases b with
        | none => simp [hb, Fault.raise, exec_bind] at h
        | some b =>
          simp only [hb, Fault.raise] at h
          exact ⟨b, rfl, ⟨hfill, rfl⟩, by simpa [exec_lift] using h⟩
    | some bop =>
      rw [hop] at h
      dsimp only at h
      simp only [exec_bind, exec_lift] at h
      cases hover : sel.overrun m.entries.size with
      | some o => simp [hover, Fault.check, Fault.raise] at h
      | none =>
        simp only [hover, Fault.check, Fault.raise] at h
        cases hout : ((operate .matrix fun env =>
            Binary.apply env bop { value := .matrix (Selection.extract m sel) } rhs).exec ws) with
        | mk r ws₁ =>
          rw [hout] at h
          cases r with
          | error e => cases h
          | ok out =>
            dsimp only at h
            split at h
            · rename_i b
              exact ⟨b, rfl, ⟨rfl, .matrix b, by rw [hout], .inl rfl⟩, by simpa [exec_lift] using h⟩
            · rename_i x
              exact ⟨Matrix.ofScalar x, rfl, ⟨rfl, .scalar x, by rw [hout], .inr ⟨x, rfl, rfl⟩⟩,
                by simpa [exec_lift] using h⟩
            · simp [exec_bind] at h

/-- Following the accessor a value was put at reads that value back. -/
theorem follow_replaceAt_self {slot mid : Value} {a : Accessor} (hf : Accessor.follow slot a = .ok mid)
    (v : Value) : Accessor.follow (replaceAt slot a v) a = .ok v := by
  unfold Accessor.follow at hf
  split at hf
  · simp only [replaceAt, Accessor.follow, Members.get?_insert_self]
  · rename_i items i
    have hi : i < items.length := by
      cases hx : items[i]? with
      | none => simp [hx] at hf
      | some x => exact (List.getElem?_eq_some_iff.mp hx).1
    simp [replaceAt, Accessor.follow, hi]
  · cases hf
  · cases hf

/-- Putting a value at one accessor leaves what every other accessor reads. -/
theorem follow_replaceAt_ne (slot : Value) {a b : Accessor} (v : Value) (hab : b ≠ a) :
    Accessor.follow (replaceAt slot a v) b = Accessor.follow slot b := by
  unfold replaceAt
  split
  · rename_i ms k
    cases b with
    | key k' =>
      have hk : k' ≠ k := fun h => hab (by rw [h])
      simp only [Accessor.follow, Members.get?_insert_ne ms v hk]
    | elem j => rfl
  · rename_i kind items i
    cases b with
    | key k' => rfl
    | elem j =>
      have hj : j ≠ i := fun h => hab (by rw [h])
      simp only [Accessor.follow, List.getElem?_set_ne (Ne.symm hj), List.length_set]
  · rfl

/-- Putting a value into a container keeps the accessor of every step. -/
theorem accessor_replaceAt (slot : Value) (a : Accessor) (v : Value) (step : Step) :
    accessor (replaceAt slot a v) step = accessor slot step := by
  unfold replaceAt
  -- the accessor reads the container's constructor, and an array's length, through the subscripts
  split
  · cases step with
    | key k => rfl
    | sub args =>
      rcases args with _ | ⟨hd, rest⟩
      · rfl
      · cases hd <;> cases rest <;> rfl
  · cases step with
    | key k => rfl
    | sub args =>
      rcases args with _ | ⟨hd, rest⟩
      · rfl
      · cases hd <;> cases rest <;> simp only [accessor, List.length_set]
  · rfl

/-- `Path slot steps inner rebuild`: the steps lead from `slot` to `inner`, and `rebuild w` is
`slot` with `w` in place of `inner`, each enclosing container rebuilt by `replaceAt`. -/
inductive Path : Value → List Step → Value → (Value → Value) → Prop
  | here (slot : Value) : Path slot [] slot id
  | step {slot mid inner : Value} {s : Step} {rest : List Step} {a : Accessor}
      {rebuild : Value → Value} (hacc : accessor slot s = .ok (some a))
      (hfollow : Accessor.follow slot a = .ok mid) (hrest : Path mid rest inner rebuild) :
      Path slot (s :: rest) inner fun w => replaceAt slot a (rebuild w)

namespace Path

/-- Steps lead to one value and rebuild in one way. -/
theorem unique {slot inner inner' : Value} {steps : List Step} {rebuild rebuild' : Value → Value}
    (h : Path slot steps inner rebuild) (h' : Path slot steps inner' rebuild') :
    inner = inner' ∧ rebuild = rebuild' := by
  induction h generalizing inner' rebuild' with
  | here slot =>
    cases h'
    exact ⟨rfl, rfl⟩
  | step hacc hfollow hrest ih =>
    cases h' with
    | step hacc' hfollow' hrest' =>
      rw [hacc] at hacc'
      cases hacc'
      rw [hfollow] at hfollow'
      cases hfollow'
      obtain ⟨rfl, rfl⟩ := ih hrest'
      exact ⟨rfl, rfl⟩

/-- The rebuilt value holds the new one along the same steps. -/
theorem rebuild_reads {slot inner : Value} {steps : List Step} {rebuild : Value → Value}
    (h : Path slot steps inner rebuild) (w : Value) : ∃ rebuild', Path (rebuild w) steps w rebuild' := by
  induction h with
  | here slot => exact ⟨id, .here w⟩
  | @step slot mid inner s rest a rebuild hacc hfollow _ ih =>
    obtain ⟨rebuild', hrest'⟩ := ih
    have hacc' : accessor (replaceAt slot a (rebuild w)) s = .ok (some a) :=
      (accessor_replaceAt _ _ _ _).trans hacc
    exact ⟨_, .step hacc' (follow_replaceAt_self hfollow _) hrest'⟩

end Path

/-- A write below some steps follows them, writes at the last one and rebuilds the containers on
the way; nothing before the last step touches the workspace. -/
theorem writeInto_path {op : AssignOp} {rhs : Operand} {t : Target} {ws : Workspace} (last : Step)
    (steps : List Step) {slot v : Value}
    (h : ((writeInto slot op rhs t (steps ++ [last])).exec ws).1 = .ok v) :
    ∃ inner rebuild w, Path slot steps inner rebuild ∧
      ((writeLeaf inner last op rhs t).exec ws).1 = .ok w ∧ v = rebuild w := by
  induction steps generalizing slot v with
  | nil => exact ⟨slot, id, v, .here slot, by simpa [writeInto] using h, rfl⟩
  | cons s rest ih =>
    obtain ⟨r, rs, hr⟩ := List.exists_cons_of_ne_nil
      (List.append_ne_nil_of_right_ne_nil rest (List.cons_ne_nil last []))
    rw [List.cons_append, hr] at h
    simp only [writeInto, exec_bind, exec_lift] at h
    rw [← hr] at h
    cases hacc : accessor slot s with
    | error e => simp [hacc] at h
    | ok a? =>
      cases a? with
      | none => simp [hacc] at h
      | some a =>
        simp only [hacc, exec_bind, exec_lift] at h
        cases hmid : Accessor.follow slot a with
        | error e => simp [hmid] at h
        | ok mid =>
          simp only [hmid] at h
          cases hv : ((writeInto mid op rhs t (rest ++ [last])).exec ws).1 with
          | error e => simp [hv] at h
          | ok v' =>
            simp only [hv, exec_pure, Except.ok.injEq] at h
            obtain ⟨inner, rebuild, w, hpath, hleaf, rfl⟩ := ih hv
            exact ⟨inner, _, w, .step hacc hmid hpath, hleaf, h.symm⟩

/-- Writing at a subscript of a matrix is a block write. -/
theorem writeLeaf_matrix {m : Matrix} {args : List Subscript} {op : AssignOp} {rhs : Operand}
    {t : Target} {ws : Workspace} {w : Value}
    (h : ((writeLeaf (.matrix m) (.sub args) op rhs t).exec ws).1 = .ok w) :
    ∃ m', w = .matrix m' ∧ ((writeBlock m args op rhs t).exec ws).1 = .ok m' := by
  have hacc : accessor (.matrix m) (.sub args) = .ok none := rfl
  simp only [writeLeaf, hacc, exec_bind, exec_lift] at h
  cases hb : ((writeBlock m args op rhs t).exec ws).1 with
  | error e => simp [hb] at h
  | ok m' =>
    simp only [hb, exec_pure, Except.ok.injEq] at h
    exact ⟨m', h.symm, rfl⟩

/-- `M[sel] op= rhs` for a matrix `M` the variable's steps lead to. A failed assignment keeps the
variables and the dataset. One that returns resolved the selection against `M`'s shape, built the
block and spliced it into `M`, and stored the variable with the spliced matrix in `M`'s place,
every enclosing container rebuilt around it (`Path`), the dataset kept; at distinct positions the
splice sets the selection to the block and keeps every other entry (`Selection.Spliced`). -/
theorem block_assign_touches_selection {place : Place} {vid : Nat} {slot : Value}
    {path : List Step} {args : List Subscript} {m : Matrix} {rebuild : Value → Value}
    (op : AssignOp) (rhs : Operand) (target : DeclaredType) (ws : Workspace)
    (hroot : place.root = .var vid) (hsteps : place.steps = path ++ [.sub args])
    (hslot : ws.vars.get? vid = some slot) (hpath : Path slot path (.matrix m) rebuild) :
    (∀ e, ((write place op rhs target).exec ws).1 = .error e →
      ws.DataKept ((write place op rhs target).exec ws).2) ∧
    (((write place op rhs target).exec ws).1 = .ok () →
      ∃ sel block m', Selection.resolve args m.shape = .ok sel ∧
        BlockOf m sel op rhs ⟨ws.dataset, target, place.text⟩ ws block ∧
        Selection.splice m sel block = .ok m' ∧ (sel.Distinct → Selection.Spliced m sel block m') ∧
        ((write place op rhs target).exec ws).2.vars = ws.vars.setSlot vid (rebuild (.matrix m')) ∧
        { ((write place op rhs target).exec ws).2.dataset with modified := ws.dataset.modified } =
          ws.dataset) := by
  refine ⟨write_failsKept place op rhs target ws, fun hok => ?_⟩
  have hwrite : write place op rhs target = nested place op rhs target := by
    simp [write, hsteps]
  rw [hwrite] at hok ⊢
  unfold nested at hok ⊢
  simp only [hroot, hslot, exec_bind, exec_get] at hok ⊢
  -- the variable's new value is computed first, then stored
  let t : Target := ⟨ws.dataset, target, place.text⟩
  have hkept := Keeps.closed.writeInto slot op rhs t place.steps ws
  cases hv : ((writeInto slot op rhs t place.steps).exec ws).1 with
  | error e => simp [t, hv] at hok
  | ok v =>
    rw [hsteps] at hv
    obtain ⟨inner, rebuild', w, hpath', hleaf, rfl⟩ := writeInto_path (.sub args) path hv
    obtain ⟨rfl, rfl⟩ := hpath.unique hpath'
    obtain ⟨m', rfl, hblock⟩ := writeLeaf_matrix hleaf
    obtain ⟨sel, block, hres, hof, hsplice⟩ := writeBlock_spec hblock
    simp only [exec_modify]
    exact ⟨sel, block, m', hres, hof, hsplice, Selection.splice_spliced hsplice,
      by rw [hkept.1], hkept.2⟩

/-- A bundle whose member `M` is the `1 × 1` matrix `[1]`. -/
def bundledMatrix : Value := .bundle [("M", .matrix (Matrix.ofScalar 1))]

/-- A workspace whose one variable `b` is `bundledMatrix`. -/
def bundledMatrixWs : Workspace :=
  { dataset := Dataset.create 0
    vars := ({} : VarTable).push "b" bundledMatrix (VarTable.lookup_empty "b") }

/-- The place `b.M[:]`. -/
def bundledBlock : Place := { root := .var 0, steps := [.key "M", .sub [.all]], text := "b.M[:]" }

theorem bundled_block_add_touches_selection :
    let r := (write bundledBlock .add { value := .scalar 2 } .any).exec bundledMatrixWs
    (∀ e, r.1 = .error e → bundledMatrixWs.DataKept r.2) ∧
    (r.1 = .ok () →
      ∃ sel block m', Selection.resolve [.all] (Matrix.ofScalar 1).shape = .ok sel ∧
        BlockOf (Matrix.ofScalar 1) sel .add { value := .scalar 2 }
          ⟨bundledMatrixWs.dataset, .any, bundledBlock.text⟩ bundledMatrixWs block ∧
        Selection.splice (Matrix.ofScalar 1) sel block = .ok m' ∧
        (sel.Distinct → Selection.Spliced (Matrix.ofScalar 1) sel block m') ∧
        r.2.vars = bundledMatrixWs.vars.setSlot 0 (replaceAt bundledMatrix (.key "M") (.matrix m')) ∧
        { r.2.dataset with modified := bundledMatrixWs.dataset.modified } = bundledMatrixWs.dataset) :=
  @block_assign_touches_selection bundledBlock 0 bundledMatrix [.key "M"] [.all] (Matrix.ofScalar 1) _
    .add { value := .scalar 2 } .any bundledMatrixWs rfl rfl rfl (.step rfl rfl (.here _))

end Assign

end SeriesCalc
