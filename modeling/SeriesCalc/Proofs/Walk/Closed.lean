import Mathlib.Logic.Relation
import SeriesCalc.Eval.Walk
import SeriesCalc.Proofs.Exec

/-!
# Properties that every walk has

* **Subtrees** (`Forest.Below f root p`): `p` is reached from `root` through child links (the
  operands of a node, its argument and element runs, the elements of a matrix row, the bounds of
  a range).
* **Closed properties** (`EvalM.WalkClosed fr K`): a property `K` of walk steps in the frame `fr`
  that holds of every step leaving the workspace as it is and of every `compute`, and that
  `bind` and `read` keep.
* **Blind properties** (`EvalM.WalkBlind fr K`): the same, for the steps that do not run user
  functions; reading the frame is kept only for a step that looks at its forest and target
  alone. Every closed property is blind (`WalkClosed.blind`). Each kind of node is built from
  such steps, its children and, for a call, `Walk.call`; so a node has a blind `K` once its
  children and its call do (`Walk.step_keeps`), and every position below a root has it once the
  calls below the root do (`evalNode_keeps`, a strong induction on the position).

`Stays fr P` is closed for every `P` that does not look at the warning log
(`Stays.walkClosed`).
-/

namespace SeriesCalc

/-- The child positions of a node, in the forest that holds it. -/
def Node.kids (f : Forest) : Node → List Nat
  | .unary _ x => [x]
  | .binary _ l r => [l, r]
  | .ternary c a b => [c, a, b]
  | .call _ args => f.list args
  | .matrixLit rows => f.list rows
  | .matrixRow elems => f.list elems
  | .listLit elems => f.list elems
  | .bundleLit pairs => f.list pairs
  | .arrayLit elems => f.list elems
  | .index base args => base :: f.list args
  | .member base _ => [base]
  | .range lo hi => [lo, hi]
  | .lag base k => [base, k]
  | .ref x => [x]
  | _ => []

namespace Forest

/-- `c` is a child position of the node at `p`. -/
def Child (f : Forest) (p c : Nat) : Prop := ∃ n, f.node? p = some n ∧ c ∈ n.kids f

/-- `p` lies in the subtree at `root`. -/
def Below (f : Forest) (root p : Nat) : Prop := Relation.ReflTransGen f.Child root p

theorem Below.refl (f : Forest) (p : Nat) : f.Below p p := Relation.ReflTransGen.refl

theorem Below.trans {f : Forest} {a b c : Nat} (hab : f.Below a b) (hbc : f.Below b c) :
    f.Below a c :=
  Relation.ReflTransGen.trans hab hbc

/-- The positions of a pair of a bundle literal come from its run. -/
theorem mem_of_mem_chunksOfTwo :
    ∀ {l chunk : List Nat}, chunk ∈ chunksOfTwo l → ∀ x ∈ chunk, x ∈ l
  | a :: b :: rest, chunk, h, x, hx => by
    rw [chunksOfTwo, List.mem_cons] at h
    rcases h with rfl | h
    · simp only [List.mem_cons, List.not_mem_nil, or_false] at hx
      rcases hx with rfl | rfl <;> simp
    · exact List.mem_cons_of_mem _ (List.mem_cons_of_mem _ (mem_of_mem_chunksOfTwo h x hx))
  | [a], chunk, h, x, hx => by
    simp only [chunksOfTwo, List.mem_singleton] at h
    subst h
    exact hx
  | [], _, h, _, _ => by simp [chunksOfTwo] at h

theorem Below.kid {f : Forest} {p c : Nat} {n : Node} (hn : f.node? p = some n) (hc : c ∈ n.kids f) :
    f.Below p c :=
  Relation.ReflTransGen.single ⟨n, hn, hc⟩

end Forest

namespace EvalM

/-- `K` holds of every step that leaves the workspace as it is and of every `compute`, and
`bind` and `read` keep it. -/
structure WalkClosed (fr : Frame) (K : {α : Type} → EvalM α → Prop) : Prop where
  of_ws : ∀ {α : Type} {x : EvalM α}, (∀ m, (x.exec fr m).2.ws = m.ws) → K x
  compute : ∀ (pos : Nat) (op : OpEnv → OpM Unit), K (EvalM.compute pos op)
  bind : ∀ {α β : Type} {x : EvalM α} {f : α → EvalM β}, K x → (∀ a, K (f a)) → K (x >>= f)
  read_bind : ∀ {β : Type} {f : Frame → EvalM β}, K (f fr) → K (read >>= f)

/-- `K` holds of every step that leaves the workspace as it is and runs alike in every frame that
runs user functions otherwise than `fr`, and of every `compute`; `bind` keeps it, and so does
reading the frame for a step that looks only at its forest and target. Each closed property is
one (`WalkClosed.blind`); so is running alike in two frames that run user functions alike where
the walk calls them. -/
structure WalkBlind (fr : Frame) (K : {α : Type} → EvalM α → Prop) : Prop where
  of_ws : ∀ {α : Type} {x : EvalM α}, (∀ m, (x.exec fr m).2.ws = m.ws) →
    (∀ inv m, x.exec { fr with invoke := inv } m = x.exec fr m) → K x
  compute : ∀ (pos : Nat) (op : OpEnv → OpM Unit), K (EvalM.compute pos op)
  bind : ∀ {α β : Type} {x : EvalM α} {f : α → EvalM β}, K x → (∀ a, K (f a)) → K (x >>= f)
  read_bind : ∀ {β : Type} {f : Frame → EvalM β}, (∀ inv, f { fr with invoke := inv } = f fr) →
    K (f fr) → K (read >>= f)

theorem WalkClosed.blind {fr : Frame} {K : {α : Type} → EvalM α → Prop} (F : WalkClosed fr K) :
    WalkBlind fr K :=
  ⟨fun h _ => F.of_ws h, F.compute, F.bind, fun _ h => F.read_bind h⟩

namespace WalkBlind

variable {fr : Frame} {K : {α : Type} → EvalM α → Prop} {α : Type}

/-! The steps that leave the workspace alone and never run a user function. -/

protected theorem pure (F : WalkBlind fr K) (a : α) : K (pure a) :=
  F.of_ws (fun _ => rfl) fun _ _ => rfl

protected theorem throw (F : WalkBlind fr K) (e : EvalError) : K (throw e : EvalM α) :=
  F.of_ws (fun _ => rfl) fun _ _ => rfl

theorem fail (F : WalkBlind fr K) (e : Fault) : K (EvalM.fail e : EvalM α) :=
  F.of_ws (fun _ => rfl) fun _ _ => rfl

protected theorem get (F : WalkBlind fr K) : K get := F.of_ws (fun _ => rfl) fun _ _ => rfl

theorem workspace (F : WalkBlind fr K) : K EvalM.workspace := F.of_ws (fun _ => rfl) fun _ _ => rfl

theorem lift (F : WalkBlind fr K) (r : Except EvalError α) : K (EvalM.lift r) :=
  F.of_ws (fun _ => by rw [exec_lift]) fun _ _ => by rw [exec_lift, exec_lift]

theorem operand (F : WalkBlind fr K) (id : Nat) : K (EvalM.operand id) :=
  F.of_ws (fun _ => by rw [exec_operand]) fun _ _ => by rw [exec_operand, exec_operand]

theorem modifyCells (F : WalkBlind fr K) (g : CellStore → CellStore × α) :
    K (EvalM.modifyCells g) :=
  F.of_ws (fun _ => rfl) fun _ _ => rfl

theorem literal (F : WalkBlind fr K) (pos : Nat) (v : Value) : K (EvalM.literal pos v) :=
  F.modifyCells _

theorem bindCell (F : WalkBlind fr K) (pos : Nat) (h : Handle) (k : ValueKind) (r : Role) :
    K (EvalM.bindCell pos h k r) :=
  F.modifyCells _

theorem share (F : WalkBlind fr K) (pos target : Nat) : K (EvalM.share pos target) :=
  F.modifyCells _

protected theorem ite (_ : WalkBlind fr K) {c : Prop} [Decidable c] {x y : EvalM α} (hx : K x)
    (hy : K y) : K (if c then x else y) := by
  split
  · exact hx
  · exact hy

protected theorem mapM (F : WalkBlind fr K) {β : Type} {f : α → EvalM β} :
    ∀ (l : List α), (∀ a ∈ l, K (f a)) → K (l.mapM f)
  | [], _ => F.pure _
  | a :: l, h => by
    rw [List.mapM_cons]
    exact F.bind (h a List.mem_cons_self) fun _ =>
      F.bind (F.mapM l fun b hb => h b (List.mem_cons_of_mem _ hb)) fun _ => F.pure _

end WalkBlind

/-- A property that does not look at the warning log stays through every closed step. -/
theorem Stays.walkClosed {fr : Frame} {P : Workspace → Prop} (hP : LogBlind P) :
    WalkClosed fr (fun x => Stays fr P x) :=
  ⟨Stays.of_ws, Stays.compute hP, Stays.bind, Stays.read_bind⟩

end EvalM

namespace Walk

open EvalM

variable {fr : Frame} {K : {α : Type} → EvalM α → Prop} (F : WalkBlind fr K)
  {child : Nat → EvalM Nat}

include F

theorem ident_keeps (pos : Nat) (name : String) : K (ident pos name) := by
  unfold ident
  refine F.bind F.workspace fun ws => ?_
  split
  · exact F.bindCell _ _ _ _
  · split
    · exact F.bindCell _ _ _ _
    · exact F.fail _

theorem logical_keeps {pos : Nat} {op : BinaryOp} {l r : Nat} (hl : K (child l)) (hr : K (child r)) :
    K (logical child pos op l r) := by
  unfold logical
  refine F.bind hl fun a => F.bind (F.operand a) fun o => ?_
  dsimp only
  split
  · split
    · exact F.share _ _
    · exact F.compute _ _
  · exact F.bind hr fun _ => F.compute _ _

theorem seriesConditional_keeps {pos c : Nat} {sample : Array Float} {thenB elseB : Nat}
    (ha : K (child thenB)) (hb : K (child elseB)) :
    K (seriesConditional child pos c sample thenB elseB) := by
  unfold seriesConditional
  refine F.bind F.workspace fun ws => ?_
  dsimp only
  -- a branch taken over the whole sample is evaluated alone
  split
  · exact F.compute _ _
  · exact F.bind ha fun _ => F.bind (F.operand _) fun _ =>
      F.ite (F.share _ _) (F.ite (F.compute _ _) (F.compute _ _))
  · exact F.bind hb fun _ => F.bind (F.operand _) fun _ =>
      F.ite (F.share _ _) (F.ite (F.compute _ _) (F.compute _ _))
  · exact F.bind ha fun _ => F.bind hb fun _ => F.compute _ _

theorem conditional_keeps {pos cond thenB elseB : Nat} (hc : K (child cond)) (ha : K (child thenB))
    (hb : K (child elseB)) : K (conditional child pos cond thenB elseB) := by
  unfold conditional
  refine F.bind hc fun c => F.bind (F.operand c) fun o => ?_
  split
  · split
    · exact F.bind ha fun _ => F.share _ _
    · exact F.bind hb fun _ => F.share _ _
    · exact F.compute _ _
  · split
    · exact F.bind F.workspace fun _ => F.bind (F.lift _) fun _ => seriesConditional_keeps F ha hb
    · exact F.bind ha fun _ => F.bind hb fun _ => F.compute _ _
    · exact F.fail _

theorem matrixLiteral_keeps {pos : Nat} {rows : Children}
    (h : ∀ row ∈ fr.forest.list rows, ∀ elems, fr.forest.node? row = some (.matrixRow elems) →
      ∀ c ∈ fr.forest.list elems, K (child c)) :
    K (matrixLiteral child pos rows) := by
  unfold matrixLiteral
  refine F.read_bind (fun _ => rfl) (F.bind (F.mapM _ fun row hrow => ?_) fun _ => F.compute _ _)
  split
  · rename_i elems hrow'
    exact F.mapM _ (h row hrow elems hrow')
  · exact F.throw _

theorem listLiteral_keeps {pos : Nat} {elems : Children} (h : ∀ c ∈ fr.forest.list elems, K (child c)) :
    K (listLiteral child pos elems) := by
  unfold listLiteral
  exact F.read_bind (fun _ => rfl) (F.bind (F.mapM _ h) fun _ => F.compute _ _)

theorem arrayLiteral_keeps {pos : Nat} {elems : Children} (h : ∀ c ∈ fr.forest.list elems, K (child c)) :
    K (arrayLiteral child pos elems) := by
  unfold arrayLiteral
  exact F.read_bind (fun _ => rfl) (F.bind (F.mapM _ h) fun _ => F.compute _ _)

theorem bundleLiteral_keeps {pos : Nat} {pairs : Children} (h : ∀ c ∈ fr.forest.list pairs, K (child c)) :
    K (bundleLiteral child pos pairs) := by
  unfold bundleLiteral
  refine F.read_bind (fun _ => rfl) (F.bind (F.mapM _ fun chunk hchunk => ?_) fun _ => F.compute _ _)
  split
  · rename_i key value
    have hv : value ∈ fr.forest.list pairs := Forest.mem_of_mem_chunksOfTwo hchunk value (by simp)
    split
    · exact F.bind (h value hv) fun _ => F.pure _
    · exact F.throw _
  · exact F.throw _

/-- A range bound is read as an operand and checked to be a scalar. -/
theorem rangeBound_keeps (id : Nat) : K (do
    let o ← operand id
    match o.scalar? with
    | some x => pure x
    | none => fail (.typeMismatch "scalar range bound" o.kind) : EvalM Float) :=
  F.bind (F.operand id) fun o => by
    split
    · exact F.pure _
    · exact F.fail _

theorem subscripts_keeps {args : List Nat}
    (h : ∀ a ∈ args, K (child a) ∧
      ∀ lo hi, fr.forest.node? a = some (.range lo hi) → K (child lo) ∧ K (child hi)) :
    K (subscripts child args) := by
  unfold subscripts
  refine F.read_bind (fun _ => rfl) (F.mapM _ fun a ha => ?_)
  split
  · exact F.pure _
  · exact F.pure _
  · rename_i lo hi hr
    obtain ⟨hlo, hhi⟩ := (h a ha).2 lo hi hr
    exact F.bind hlo fun _ => F.bind hhi fun _ => F.bind (rangeBound_keeps F _) fun _ =>
      F.bind (rangeBound_keeps F _) fun _ => F.pure _
  · refine F.bind (h a ha).1 fun id => F.bind (F.operand id) fun o => F.ite (F.pure _) ?_
    split
    · exact F.pure _
    · exact F.pure _
    · exact F.fail _

/-- The subscripts of an index node, and the bounds of their ranges, lie below it. -/
theorem index_subscripts_keeps {pos base : Nat} {args : Children}
    (hn : fr.forest.node? pos = some (.index base args))
    (hchild : ∀ c, fr.forest.Below pos c → K (child c)) :
    K (subscripts child (fr.forest.list args)) := by
  have below : ∀ a ∈ fr.forest.list args, fr.forest.Below pos a := fun a ha =>
    Forest.Below.kid hn (by simp [Node.kids, ha])
  -- a range subscript evaluates its bounds, two links below the index
  refine subscripts_keeps F fun a ha => ⟨hchild a (below a ha), fun lo hi hr => ⟨?_, ?_⟩⟩
  · exact hchild lo ((below a ha).trans (Forest.Below.kid hr (by simp [Node.kids])))
  · exact hchild hi ((below a ha).trans (Forest.Below.kid hr (by simp [Node.kids])))

/-- Every way through a member lookup ends in the same join: the bound cell, or a cell computed
from the base. -/
theorem accessJoin_keeps (pos b : Nat) (subs : List Subscript) (bound? : Option Nat) :
    K (match bound? with
      | some id => pure id
      | none => compute pos fun env => do
        let base ← OpM.read env b
        OpM.put (← OpM.lift (indexValue base.value subs env.ds))) := by
  split
  · exact F.pure _
  · exact F.compute _ _

theorem access_keeps (pos b : Nat) (subs : List Subscript) : K (access pos b subs) := by
  unfold access
  refine F.bind (F.operand b) fun base => ?_
  split
  · exact F.bind (F.lift _) fun _ => F.bindCell _ _ _ _
  · refine F.bind (F.lift _) fun _ => F.bind F.get fun m => ?_
    dsimp only
    split
    · exact F.bind (F.lift _) fun _ =>
        F.ite (F.bind (F.pure _) fun _ => accessJoin_keeps F pos b _ _)
          (F.bind (F.bindCell _ _ _ _) fun _ => F.bind (F.pure _) fun _ => accessJoin_keeps F pos b _ _)
    · exact F.bind (F.pure _) fun _ => accessJoin_keeps F pos b _ _

theorem lag_keeps {pos base k : Nat} (hb : K (child base)) (hk : K (child k)) :
    K (lag child pos base k) := by
  unfold lag
  refine F.bind hb fun _ => F.bind hk fun _ => F.bind (F.operand _) fun ko => ?_
  dsimp only
  split
  · exact F.ite (F.bind (F.pure _) fun _ => F.compute _ _) (F.bind (F.fail _) fun _ => F.compute _ _)
  · exact F.bind (F.fail _) fun _ => F.compute _ _

/-- One node: each kind of node has `K` once its children do and, for a call, the call does. -/
theorem step_keeps {pos : Nat} (hchild : ∀ c, fr.forest.Below pos c → K (child c))
    (hcall : ∀ fn args, fr.forest.node? pos = some (.call fn args) →
      K (call child pos (fr.forest.name fn) (fr.forest.list args))) :
    K (step child pos) := by
  unfold step
  refine F.read_bind (fun _ => rfl) ?_
  dsimp only
  split
  · exact F.throw _
  · rename_i n hn
    have kid : ∀ c ∈ n.kids fr.forest, K (child c) := fun c hc => hchild c (Forest.Below.kid hn hc)
    cases n with
    | num x => exact F.literal _ _
    | str s => exact F.literal _ _
    | null => exact F.literal _ _
    | ident name => exact ident_keeps F _ _
    | selector d => exact F.fail _
    | all => exact F.fail _
    | unary op x => exact F.bind (kid x (by simp [Node.kids])) fun _ => F.compute _ _
    | binary op l r =>
      have hl := kid l (by simp [Node.kids])
      have hr := kid r (by simp [Node.kids])
      exact F.ite (logical_keeps F hl hr) (F.bind hl fun _ => F.bind hr fun _ => F.compute _ _)
    | ternary c a b =>
      exact conditional_keeps F (kid c (by simp [Node.kids])) (kid a (by simp [Node.kids]))
        (kid b (by simp [Node.kids]))
    | call fn args => exact hcall fn args hn
    | matrixLit rows =>
      refine matrixLiteral_keeps F fun row hrow elems hrow' c hc => hchild c ?_
      exact (Forest.Below.kid hn hrow).trans (Forest.Below.kid hrow' hc)
    | matrixRow elems => exact F.fail _
    | listLit elems => exact listLiteral_keeps F kid
    | bundleLit pairs => exact bundleLiteral_keeps F kid
    | arrayLit elems => exact arrayLiteral_keeps F kid
    | index base args =>
      exact F.bind (kid base (by simp [Node.kids])) fun _ =>
        F.bind (index_subscripts_keeps F hn hchild) fun _ => access_keeps F _ _ _
    | member base key =>
      refine F.bind (kid base (by simp [Node.kids])) fun _ => F.bind (F.operand _) fun o => ?_
      split
      · exact F.fail _
      · exact F.fail _
      · exact F.fail _
      · exact access_keeps F _ _ _
    | range lo hi => exact F.fail _
    | lag base k => exact lag_keeps F (kid base (by simp [Node.kids])) (kid k (by simp [Node.kids]))
    | ref x => exact F.fail _

end Walk

/-- **Every position has a closed property once its calls do.** Below `root`, each call is
taken with any way of evaluating its arguments that has the property below the call. -/
theorem evalNode_keeps {fr : Frame} {K : {α : Type} → EvalM α → Prop} (F : EvalM.WalkBlind fr K)
    (root : Nat)
    (hcall : ∀ pos fn args (child : Nat → EvalM Nat), fr.forest.Below root pos →
      fr.forest.node? pos = some (.call fn args) → (∀ c, fr.forest.Below pos c → K (child c)) →
      K (Walk.call child pos (fr.forest.name fn) (fr.forest.list args))) :
    ∀ pos, fr.forest.Below root pos → K (evalNode pos) := by
  intro pos
  induction pos using Nat.strongRecOn with
  | ind pos ih =>
    intro hpos
    rw [evalNode]
    -- a child that does not come before its parent is refused
    have hchild : ∀ c, fr.forest.Below pos c →
        K (if c < pos then evalNode c else throw Walk.malformed) := by
      intro c hc
      split
      · exact ih c ‹_› (hpos.trans hc)
      · exact F.throw _
    exact Walk.step_keeps F hchild fun fn args hn => hcall pos fn args _ hpos hn hchild

end SeriesCalc
