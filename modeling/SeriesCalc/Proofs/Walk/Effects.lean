import SeriesCalc.Proofs.Walk.Closed

/-!
# What a walk may change

A walk over a tree that calls no user function reads the dataset and the variables and writes
only the warning log and the statement's cells.

* **User calls** (`Workspace.CallsUser`): a call runs a user function when no builtin of its
  name is present and a user function of that name is; `Forest.NoUserCall ws f root` says that no
  call below `root` does.
* **The walk** (`evalNode_stays`): evaluating a position whose subtree makes no user call keeps
  every property of the workspace that does not look at the warning log. Such a property is
  closed under the steps of a walk (`Stays.walkClosed`), and a call that runs a builtin or
  names no function keeps it (`Walk.call_stays`).
-/

namespace SeriesCalc

/-- A call of `name` runs a user function: the builtin library has no routine of that name (or
is absent), and a user function of that name is defined. -/
def Workspace.CallsUser (ws : Workspace) (name : String) : Prop :=
  (if ws.library then Builtin.ofName? name else none) = none ∧ (ws.functions.find? name).isSome

/-- No call in the subtree at `root` runs a user function of `ws`. -/
def Forest.NoUserCall (f : Forest) (ws : Workspace) (root : Nat) : Prop :=
  ∀ p, f.Below root p → ∀ fn args, f.node? p = some (.call fn args) → ¬ ws.CallsUser (f.name fn)

theorem Forest.NoUserCall.below {f : Forest} {ws : Workspace} {root p : Nat}
    (h : f.NoUserCall ws root) (hp : f.Below root p) : f.NoUserCall ws p :=
  fun q hq => h q (hp.trans hq)

namespace Walk

open EvalM

variable {fr : Frame} {P : Workspace → Prop} {child : Nat → EvalM Nat}

/-- A call that runs a builtin, or names no function at all. -/
theorem call_stays (hP : LogBlind P) {pos : Nat} {name : String} {args : List Nat}
    (hname : ∀ ws, P ws → ¬ ws.CallsUser name) (h : ∀ c ∈ args, Stays fr P (child c)) :
    Stays fr P (call child pos name args) := by
  unfold call
  refine Stays.workspace_bind fun m hm => ?_
  split
  · exact ((Stays.mapM _ h).bind fun _ => Stays.compute hP _ _) m hm
  · rename_i hb
    split
    · exact Stays.fail _ m hm
    · rename_i hfn
      have hsome : (m.ws.functions.find? name).isSome := by
        simpa only [FunctionTable.contains, Bool.not_eq_true', Bool.not_eq_false] using hfn
      exact absurd ⟨hb, hsome⟩ (hname _ hm)

end Walk

/-- **The walk changes only the log.** Evaluating a position whose subtree calls no user
function keeps every property of the workspace that does not look at the warning log. -/
theorem evalNode_stays {fr : Frame} {P : Workspace → Prop} (hP : EvalM.LogBlind P) :
    ∀ pos, (∀ ws, P ws → fr.forest.NoUserCall ws pos) → EvalM.Stays fr P (evalNode pos) := by
  intro root hcalls
  refine evalNode_keeps (EvalM.Stays.walkClosed hP).blind root
    (fun pos fn args child hpos hn hchild => ?_) root (Forest.Below.refl _ _)
  refine Walk.call_stays hP (fun ws hws => hcalls ws hws pos hpos fn args hn) fun c hc => ?_
  exact hchild c (Forest.Below.kid hn (by simpa [Node.kids] using hc))

end SeriesCalc
