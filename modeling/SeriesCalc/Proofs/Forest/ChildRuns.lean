import Mathlib
import SeriesCalc.Expr.Build

/-!
# Runs of children

The children of a call, a literal, a matrix row or a subscript are stored as a run of the
forest's child table (`Forest.pushList`): where the run starts and how long it is. A run starts
at a 32-bit position and counts at most 65535 children, so a longer list keeps only its first
65535 children, and once the table has passed `2^32 - 2` entries every new run starts there.

* `list_pushList`: below that size, reading a run back gives the list, cut to 65535 children.
* `Forest.Extends`: a forest built on from another, whose nodes and child table begin with the
  other's. Every way of adding to a forest extends it, and an extension reads every earlier run
  and node as before (`list_of_extends`, `node?_of_extends`).
* `positions_disjoint`: runs stored one after the other share no position of the table.
* `Builder.Grows`: a building step whose forest only grows; every shape builds that way
  (`Shape.build_grows`, by induction over the shape and its lists of shapes).
* **`child_runs_read_back`**: the round trip, the disjointness of runs, and every node made with
  children reading them back in every forest built on from it.
-/

namespace SeriesCalc

/-- The table positions a run covers. -/
def Children.positions (c : Children) : List Nat := List.range' c.start c.len

namespace Forest

/-- The last position a node or a run can take: one below the invalid position. -/
theorem pos32_of_le {n : Nat} (h : n ≤ invalidPos - 1) : pos32 n = n := by
  unfold pos32
  omega

/-! ## Reading a run back -/

variable {f f' f'' : Forest}

/-- The run of a list of children: nothing for no children, else where the table ended and how
many children, at most 65535. -/
theorem pushList_run (f : Forest) (ids : List Nat) (h : f.children.size ≤ invalidPos - 1) :
    (f.pushList ids).2 = if ids = [] then ⟨0, 0⟩ else ⟨f.children.size, min ids.length 65535⟩ := by
  unfold pushList
  cases ids with
  | nil => rfl
  | cons i rest => simp only [List.isEmpty_cons, pos32_of_le h]; rfl

/-- A run of the table reads positions `start .. start + len`. -/
theorem list_eq (f : Forest) (c : Children) :
    f.list c = (f.children.toList.drop c.start).take c.len := by
  unfold list
  by_cases h : c.len = 0
  · simp [h]
  · simp [h, Array.toList_extract]

/-- **A run reads back its children, the first 65535 of them.** -/
theorem list_pushList (f : Forest) (ids : List Nat) (h : f.children.size ≤ invalidPos - 1) :
    (f.pushList ids).1.list (f.pushList ids).2 = ids.take 65535 := by
  rw [list_eq, pushList_run f ids h]
  unfold pushList
  cases ids with
  | nil => simp
  | cons i rest =>
    simp only [List.isEmpty_cons, Bool.false_eq_true, if_false, reduceCtorEq]
    rw [Array.toList_append, List.drop_left' (by simp), List.toList_toArray, Nat.min_comm]
    generalize i :: rest = l
    simp

/-! ## Forests built on -/

/-- `f'` is `f` built on: its nodes and its child table begin with those of `f`. -/
structure Extends (f f' : Forest) : Prop where
  nodes : f.nodes.toList <+: f'.nodes.toList
  children : f.children.toList <+: f'.children.toList

theorem Extends.refl (f : Forest) : f.Extends f := ⟨List.prefix_refl _, List.prefix_refl _⟩

theorem Extends.trans (h : f.Extends f') (h' : f'.Extends f'') : f.Extends f'' :=
  ⟨h.nodes.trans h'.nodes, h.children.trans h'.children⟩

/-- An extension has at least as many children in its table. -/
theorem Extends.size_le (h : f.Extends f') : f.children.size ≤ f'.children.size := by
  simpa using h.children.length_le

theorem Extends.nodes_size_le (h : f.Extends f') : f.nodes.size ≤ f'.nodes.size := by
  simpa using h.nodes.length_le

theorem extends_push (f : Forest) (n : Node) : f.Extends (f.push n).1 :=
  ⟨by simp [push], List.prefix_refl _⟩

theorem extends_pushList (f : Forest) (ids : List Nat) : f.Extends (f.pushList ids).1 := by
  unfold pushList
  split
  · exact Extends.refl f
  · exact ⟨List.prefix_refl _, by simp⟩

theorem extends_intern (f : Forest) (s : String) : f.Extends (f.intern s).1 := by
  unfold intern
  split
  · exact Extends.refl f
  · exact ⟨List.prefix_refl _, List.prefix_refl _⟩

/-- A run within the table reads the same in every extension. -/
theorem list_of_extends (h : f.Extends f') {c : Children} (hc : c.start + c.len ≤ f.children.size) :
    f'.list c = f.list c := by
  rw [list_eq, list_eq]
  obtain ⟨rest, hrest⟩ := h.children
  rw [← hrest, List.drop_append_of_le_length (by simp; omega),
    List.take_append_of_le_length (by simp; omega)]

/-- A node reads the same in every extension. -/
theorem node?_of_extends (h : f.Extends f') {id : Nat} {n : Node} (hid : f.node? id = some n) :
    f'.node? id = some n := by
  unfold node? at hid ⊢
  obtain ⟨rest, hrest⟩ := h.nodes
  have hlt : id < f.nodes.size := (Array.getElem?_eq_some_iff.1 hid).1
  rw [← Array.getElem?_toList] at hid ⊢
  rw [← hrest, List.getElem?_append_left (by simpa using hlt)]
  exact hid

/-- A run lies within the table it was stored in. -/
theorem pushList_within (f : Forest) (ids : List Nat) (h : f.children.size ≤ invalidPos - 1) :
    (f.pushList ids).2.start + (f.pushList ids).2.len ≤ (f.pushList ids).1.children.size := by
  rw [pushList_run f ids h]
  unfold pushList
  cases ids with
  | nil => simp
  | cons i rest =>
    simp only [List.isEmpty_cons, Bool.false_eq_true, if_false, reduceCtorEq, Array.size_append,
      List.size_toArray, List.length_cons]
    omega

/-- A run stored before a later run ends where the later one can start: the two share no
position, as long as the table has not passed `2^32 - 2` entries. -/
theorem positions_disjoint (f : Forest) (ids : List Nat) {g : Forest} (ids' : List Nat)
    (hg : (f.pushList ids).1.Extends g) (hsize : g.children.size ≤ invalidPos - 1) {k : Nat}
    (hk : k ∈ (f.pushList ids).2.positions) : k ∉ (g.pushList ids').2.positions := by
  have hf : f.children.size ≤ invalidPos - 1 :=
    le_trans ((extends_pushList f ids).trans hg).size_le hsize
  have hwithin := pushList_within f ids hf
  have hle := hg.size_le
  simp only [Children.positions, List.mem_range'_1] at hk ⊢
  rw [pushList_run g ids' hsize]
  split <;> simp only <;> omega

end Forest

namespace Builder

open Forest

variable {α β : Type}

/-! ## Building steps that only add -/

/-- A building step whose forest only grows: wherever it succeeds, the forest it leaves is the
one it found, built on. -/
def Grows (m : BuildM α) : Prop :=
  ∀ b r b', m.run b = .ok (r, b') → b.forest.Extends b'.forest

theorem Grows.pure (a : α) : Grows (Pure.pure a : BuildM α) := by
  intro b r b' h
  rw [StateT.run_pure] at h
  cases h
  exact Extends.refl _

theorem Grows.bind {m : BuildM α} {f : α → BuildM β} (hm : Grows m) (hf : ∀ a, Grows (f a)) :
    Grows (m >>= f) := by
  intro b r b' h
  rw [StateT.run_bind] at h
  cases hrun : m.run b with
  | error e =>
    rw [hrun] at h
    cases h
  | ok p =>
    rw [hrun] at h
    exact (hm b p.1 p.2 hrun).trans (hf p.1 p.2 r b' h)

theorem Grows.throw (e : String) : Grows (MonadExcept.throw e : BuildM α) := by
  intro b r b' h
  cases h

theorem Grows.ite (c : Bool) {m m' : BuildM α} (hm : Grows m) (hm' : Grows m') :
    Grows (if c = true then m else m') := by
  cases c
  · exact hm'
  · exact hm

theorem grows_push (n : Node) : Grows (push n) := by
  intro b r b' h
  obtain ⟨forest, labels⟩ := b
  cases h
  exact extends_push forest n

theorem grows_pushList (ids : List Nat) : Grows (pushList ids) := by
  intro b r b' h
  obtain ⟨forest, labels⟩ := b
  cases h
  exact extends_pushList forest ids

theorem grows_intern (s : String) : Grows (intern s) := by
  intro b r b' h
  obtain ⟨forest, labels⟩ := b
  cases h
  exact extends_intern forest s

theorem grows_get : Grows (get : BuildM Builder) := by
  intro b r b' h
  cases h
  exact Extends.refl _

/-- Remembering a label leaves the forest as it is. -/
theorem grows_label (l : String) (id : Nat) :
    Grows (modify fun b : Builder => { b with labels := (l, id) :: b.labels }) := by
  intro b r b' h
  cases h
  exact Extends.refl _

theorem grows_withChildren (ids : List Nat) (mk : Children → Node) : Grows (withChildren ids mk) :=
  Grows.bind (grows_pushList ids) fun c => grows_push (mk c)

/-- A loop whose every round only grows the forest. -/
theorem Grows.forIn {γ : Type} (l : List γ) (init : β) {body : γ → β → BuildM (ForInStep β)}
    (h : ∀ x a, Grows (body x a)) : Grows (ForIn.forIn l init body) := by
  induction l generalizing init with
  | nil => exact Grows.pure init
  | cons x xs ih =>
    rw [List.forIn_cons]
    refine Grows.bind (h x init) fun step => ?_
    cases step with
    | done a => exact Grows.pure a
    | yield a => exact ih a

theorem grows_pushRows : ∀ rows : List (List Nat), Grows (pushRows rows)
  | [] => Grows.pure _
  | r :: rest =>
    Grows.bind (grows_withChildren r .matrixRow) fun _ =>
      Grows.bind (grows_pushRows rest) fun _ => Grows.pure _

theorem grows_pushKeys : ∀ (ks : List String) (vs : List Nat), Grows (pushKeys ks vs)
  | k :: ks, _ :: vs =>
    Grows.bind (grows_intern k) fun _ => Grows.bind (grows_push _) fun _ =>
      Grows.bind (grows_pushKeys ks vs) fun _ => Grows.pure _
  | [], _ => Grows.pure _
  | _ :: _, [] => Grows.pure _

end Builder

namespace Shape

open Builder

/-! ## Every shape builds by adding -/

-- One case per kind of shape, in the order `build` lists them; the lists of shapes inside a
-- call, a literal, a matrix or a bundle are covered by the companion statements.
mutual

theorem build_grows (raw : Bool) : ∀ s : Shape, Grows (s.build raw)
  | .num x => by rw [build]; exact grows_push _
  | .ident s => by rw [build]; exact Grows.bind (grows_intern s) fun _ => grows_push _
  | .str s => by rw [build]; exact Grows.bind (grows_intern s) fun _ => grows_push _
  | .null => by rw [build]; exact grows_push _
  | .all => by rw [build]; exact grows_push _
  | .selector d => by rw [build]; exact grows_push _
  | .unary op x => by rw [build]; exact Grows.bind (build_grows raw x) fun _ => grows_push _
  | .binary op l r => by
    rw [build]
    exact Grows.bind (build_grows raw l) fun _ => Grows.bind (build_grows raw r) fun _ => grows_push _
  | .ternary c a b => by
    rw [build]
    exact Grows.bind (build_grows raw c) fun _ => Grows.bind (build_grows raw a) fun _ =>
      Grows.bind (build_grows raw b) fun _ => grows_push _
  | .call f args => by
    rw [build]
    -- a raw forest interns the name first; either way the call node comes last
    refine Grows.ite raw ?_ ?_
    · refine Grows.bind (grows_intern f) fun _ => Grows.bind (buildAll_grows raw args) fun _ =>
        Grows.bind (Grows.pure _) fun p => ?_
      obtain ⟨i, ids⟩ := p
      exact grows_withChildren ids _
    · refine Grows.bind (buildAll_grows raw args) fun _ => Grows.bind (grows_intern f) fun _ =>
        Grows.bind (Grows.pure _) fun p => ?_
      obtain ⟨i, ids⟩ := p
      exact grows_withChildren ids _
  | .matrix rows => by
    rw [build]
    refine Grows.ite raw ?_ ?_
    · exact Grows.bind (buildRowsInPlace_grows rows) fun _ => grows_withChildren _ _
    · exact Grows.bind (buildRows_grows raw rows) fun _ => Grows.bind (grows_pushRows _) fun _ =>
        grows_withChildren _ _
  | .matrixRaw es => by
    rw [build]
    exact Grows.bind (buildAll_grows raw es) fun _ => grows_withChildren _ _
  | .row es => by
    rw [build]
    exact Grows.bind (buildAll_grows raw es) fun _ => grows_withChildren _ _
  | .list es => by
    rw [build]
    exact Grows.bind (buildAll_grows raw es) fun _ => grows_withChildren _ _
  | .bundle ps => by
    rw [build]
    refine Grows.ite raw ?_ ?_
    · exact Grows.bind (buildPairsInPlace_grows ps) fun _ => grows_withChildren _ _
    · exact Grows.bind (buildPairs_grows raw ps) fun _ => Grows.bind (grows_pushKeys _ _) fun _ =>
        grows_withChildren _ _
  | .bundleRaw es => by
    rw [build]
    exact Grows.bind (buildAll_grows raw es) fun _ => grows_withChildren _ _
  | .array es => by
    rw [build]
    exact Grows.bind (buildAll_grows raw es) fun _ => grows_withChildren _ _
  | .index b args => by
    rw [build]
    exact Grows.bind (build_grows raw b) fun _ =>
      Grows.bind (buildAll_grows raw args) fun _ => grows_withChildren _ _
  | .member b k => by
    rw [build]
    exact Grows.bind (build_grows raw b) fun _ => Grows.bind (grows_intern k) fun _ => grows_push _
  | .range lo hi => by
    rw [build]
    exact Grows.bind (build_grows raw lo) fun _ => Grows.bind (build_grows raw hi) fun _ => grows_push _
  | .lag b k => by
    rw [build]
    exact Grows.bind (build_grows raw b) fun _ => Grows.bind (build_grows raw k) fun _ => grows_push _
  | .ref x => by rw [build]; exact Grows.bind (build_grows raw x) fun _ => grows_push _
  | .bind l e => by
    rw [build]
    exact Grows.bind (build_grows raw e) fun id => Grows.bind (grows_label l id) fun _ => Grows.pure _
  | .reuse l => by
    rw [build]
    refine Grows.bind grows_get fun b => ?_
    split
    · exact Grows.pure _
    · exact Grows.throw _
  | .fold op base e n => by
    rw [build]
    -- the loop adds a copy of `e` and one operator node per round
    refine Grows.bind (build_grows raw base) fun acc => Grows.bind (Grows.forIn _ acc fun _ a => ?_)
      fun _ => Grows.pure _
    exact Grows.bind (build_grows raw e) fun _ => Grows.bind (grows_push _) fun _ => Grows.pure _

theorem buildAll_grows (raw : Bool) : ∀ ss : List Shape, Grows (buildAll raw ss)
  | [] => by rw [buildAll]; exact Grows.pure _
  | s :: rest => by
    rw [buildAll]
    exact Grows.bind (build_grows raw s) fun _ => Grows.bind (buildAll_grows raw rest) fun _ => Grows.pure _

theorem buildRows_grows (raw : Bool) : ∀ rows : List (List Shape), Grows (buildRows raw rows)
  | [] => by rw [buildRows]; exact Grows.pure _
  | r :: rest => by
    rw [buildRows]
    exact Grows.bind (buildAll_grows raw r) fun _ => Grows.bind (buildRows_grows raw rest) fun _ => Grows.pure _

theorem buildPairs_grows (raw : Bool) : ∀ ps : List (String × Shape), Grows (buildPairs raw ps)
  | [] => by rw [buildPairs]; exact Grows.pure _
  | (_, s) :: rest => by
    rw [buildPairs]
    exact Grows.bind (build_grows raw s) fun _ => Grows.bind (buildPairs_grows raw rest) fun _ => Grows.pure _

theorem buildRowsInPlace_grows : ∀ rows : List (List Shape), Grows (buildRowsInPlace rows)
  | [] => by rw [buildRowsInPlace]; exact Grows.pure _
  | r :: rest => by
    rw [buildRowsInPlace]
    exact Grows.bind (buildAll_grows true r) fun _ => Grows.bind (grows_withChildren _ _) fun _ =>
      Grows.bind (buildRowsInPlace_grows rest) fun _ => Grows.pure _

theorem buildPairsInPlace_grows : ∀ ps : List (String × Shape), Grows (buildPairsInPlace ps)
  | [] => by rw [buildPairsInPlace]; exact Grows.pure _
  | (k, s) :: rest => by
    rw [buildPairsInPlace]
    exact Grows.bind (grows_intern k) fun _ => Grows.bind (grows_push _) fun _ =>
      Grows.bind (build_grows true s) fun _ => Grows.bind (buildPairsInPlace_grows rest) fun _ => Grows.pure _

end

end Shape

namespace Builder

open Forest

/-! ## Nodes keep their children -/

/-- A node with children is pushed right after its run. -/
theorem withChildren_run_eq (b : Builder) (ids : List Nat) (mk : Children → Node) :
    (withChildren ids mk).run b =
      .ok (((b.forest.pushList ids).1.push (mk (b.forest.pushList ids).2)).2,
        { b with forest := ((b.forest.pushList ids).1.push (mk (b.forest.pushList ids).2)).1 }) := rfl

/-- Storing a run leaves the nodes as they are. -/
theorem Forest.nodes_pushList (f : Forest) (ids : List Nat) : (f.pushList ids).1.nodes = f.nodes := by
  unfold Forest.pushList
  split <;> rfl

/-- The node takes the next 32-bit position. -/
theorem withChildren_run {b b' : Builder} {ids : List Nat} {mk : Children → Node} {id : Nat}
    (h : (withChildren ids mk).run b = .ok (id, b')) :
    id = pos32 b.forest.nodes.size ∧
      b'.forest = ((b.forest.pushList ids).1.push (mk (b.forest.pushList ids).2)).1 := by
  rw [withChildren_run_eq] at h
  cases h
  exact ⟨by rw [← Forest.nodes_pushList b.forest ids]; rfl, rfl⟩

/-- **A node made with children reads them back in every forest built on from it**, the first
65535 of them, while the forest holds at most `2^32 - 2` nodes and child entries. -/
theorem withChildren_keeps {b b' : Builder} {ids : List Nat} {mk : Children → Node} {id : Nat}
    (h : (withChildren ids mk).run b = .ok (id, b')) :
    ∃ c, ∀ f : Forest, b'.forest.Extends f → f.nodes.size ≤ invalidPos - 1 →
      f.children.size ≤ invalidPos - 1 → f.node? id = some (mk c) ∧ f.list c = ids.take 65535 := by
  obtain ⟨hid, hb'⟩ := withChildren_run h
  set f1 := (b.forest.pushList ids).1 with hf1
  refine ⟨(b.forest.pushList ids).2, fun f hf hnodes hchildren => ⟨?_, ?_⟩⟩
  · -- the node sits where the nodes ended, which is a 32-bit position below the bound
    have hsize : f1.nodes.size = b.forest.nodes.size := by
      rw [hf1, Forest.nodes_pushList]
    have hlt : f1.nodes.size < f.nodes.size := by
      have := hf.nodes_size_le
      rw [hb'] at this
      simpa [Forest.push] using this
    have hnode : b'.forest.node? id = some (mk (b.forest.pushList ids).2) := by
      rw [hb', hid, pos32_of_le (by omega), ← hsize]
      simp [Forest.node?, Forest.push]
    exact node?_of_extends hf hnode
  · -- the run lies in the table of `f1`, which `f` builds on
    have h1 : f1.Extends f := (Forest.extends_push f1 (mk (b.forest.pushList ids).2)).trans (hb' ▸ hf)
    have hbsize : b.forest.children.size ≤ invalidPos - 1 :=
      le_trans ((extends_pushList b.forest ids).trans h1).size_le hchildren
    rw [list_of_extends h1 (pushList_within b.forest ids hbsize), list_pushList b.forest ids hbsize]

end Builder

/-- **Runs of children read back.** For every builder state `b` and list of ids: below
`2^32 - 2` entries in the child table, reading back the run stored for the ids gives them, cut to
the first 65535; a run stored later shares no table position with it; a call, literal, matrix
row or subscript node the builder makes of them reads back its children, cut the same way, in
every forest built on from it while the forest keeps below `2^32 - 2` nodes and entries; and
building any shape only builds on the forest. -/
theorem child_runs_read_back (b : Builder) (ids : List Nat) :
    (b.forest.children.size ≤ invalidPos - 1 →
      (b.forest.pushList ids).1.list (b.forest.pushList ids).2 = ids.take 65535) ∧
    (∀ (g : Forest) (ids' : List Nat), (b.forest.pushList ids).1.Extends g →
      g.children.size ≤ invalidPos - 1 →
      ∀ k ∈ (b.forest.pushList ids).2.positions, k ∉ (g.pushList ids').2.positions) ∧
    (∀ (mk : Children → Node) (id : Nat) (b' : Builder),
      (Builder.withChildren ids mk).run b = .ok (id, b') →
      ∃ c, ∀ f : Forest, b'.forest.Extends f → f.nodes.size ≤ invalidPos - 1 →
        f.children.size ≤ invalidPos - 1 → f.node? id = some (mk c) ∧ f.list c = ids.take 65535) ∧
    (∀ (raw : Bool) (s : Shape) (id : Nat) (b' : Builder),
      (s.build raw).run b = .ok (id, b') → b.forest.Extends b'.forest) :=
  ⟨Forest.list_pushList b.forest ids,
    fun _ ids' hg hsize _ hk => Forest.positions_disjoint b.forest ids ids' hg hsize hk,
    fun _ _ _ h => Builder.withChildren_keeps h, fun raw s _ _ h => Shape.build_grows raw s b _ _ h⟩

/-- The list literal of the nodes `0` and `1`, built into an empty forest, reads back both
children; a run of 65536 children reads back only the first 65535 of them. -/
theorem pair_kept_long_run_cut :
    (∃ id b', (Builder.withChildren [0, 1] .listLit).run {} = .ok (id, b') ∧
      ∃ c, b'.forest.node? id = some (.listLit c) ∧ b'.forest.list c = [0, 1]) ∧
    (({} : Forest).pushList (List.replicate 65536 0)).1.list
      (({} : Forest).pushList (List.replicate 65536 0)).2 ≠ List.replicate 65536 0 := by
  have hrun := Builder.withChildren_run_eq {} [0, 1] .listLit
  obtain ⟨c, hc⟩ := (child_runs_read_back {} [0, 1]).2.2.1 _ _ _ hrun
  obtain ⟨hnode, hlist⟩ := hc _ (Forest.Extends.refl _) (by decide) (by decide)
  refine ⟨⟨_, _, hrun, c, hnode, hlist⟩, ?_⟩
  have hcut : (({} : Forest).pushList (List.replicate 65536 0)).1.list
      (({} : Forest).pushList (List.replicate 65536 0)).2 = (List.replicate 65536 0).take 65535 :=
    (child_runs_read_back {} (List.replicate 65536 0)).1 (by decide)
  rw [hcut, List.take_replicate]
  intro heq
  have hlen := congrArg List.length heq
  rw [List.length_replicate, List.length_replicate] at hlen
  omega

end SeriesCalc
