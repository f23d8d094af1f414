import Std.Data.TreeMap.Lemmas

/-!
# Name indexes beside their positions

A dataset, a category table and a variable store each keep names at numbered positions and, beside
them, a map from each name to its position. The map agrees with the positions `f` when it sends a
name to exactly the positions `f` gives that name. The operations change one position and the map
entries of the names there, and two steps keep the agreement:

* emptying the position of a name and dropping the name's entry (`agree_erase`);
* putting a name the map lacks at an empty position, with an entry for it (`agree_insert`).

Renaming in place is the one after the other (`agree_rename`).
-/

namespace SeriesCalc

namespace NameIndex

variable {idx : Std.TreeMap String Nat} {f g : Nat → Option String} {i : Nat}

/-- Emptying the position of `old`, and dropping its entry, keeps the agreement. -/
theorem agree_erase (h : ∀ (x : String) (j : Nat), idx[x]? = some j ↔ f j = some x)
    {old : String} (hi : f i = some old) (hg : ∀ j, g j = if j = i then none else f j) :
    ∀ (x : String) (j : Nat), (idx.erase old)[x]? = some j ↔ g j = some x := by
  intro y j
  simp only [Std.TreeMap.getElem?_erase, Std.compare_eq_iff_eq, hg]
  by_cases hoy : old = y
  · -- the emptied position was the only one holding `old`
    subst hoy
    rw [if_pos rfl]
    refine ⟨(fun e => by cases e), fun hj => ?_⟩
    by_cases hji : j = i
    · rw [if_pos hji] at hj
      cases hj
    · rw [if_neg hji] at hj
      have hsame := (h old j).mpr hj
      rw [(h old i).mpr hi, Option.some.injEq] at hsame
      exact absurd hsame.symm hji
  · rw [if_neg hoy]
    by_cases hji : j = i
    · -- position `i` held `old`, so the map sent no other name there
      subst hji
      rw [if_pos rfl]
      refine ⟨fun hy => ?_, fun e => by cases e⟩
      rw [(h y j).mp hy, Option.some.injEq] at hi
      exact absurd hi.symm hoy
    · rw [if_neg hji]
      exact h y j

/-- Putting a name the map lacks at an empty position, with its entry, keeps the agreement. -/
theorem agree_insert (h : ∀ (x : String) (j : Nat), idx[x]? = some j ↔ f j = some x)
    {new : String} (hi : f i = none) (hnew : idx[new]? = none)
    (hg : ∀ j, g j = if j = i then some new else f j) :
    ∀ (x : String) (j : Nat), (idx.insert new i)[x]? = some j ↔ g j = some x := by
  intro y j
  simp only [Std.TreeMap.getElem?_insert, Std.compare_eq_iff_eq, hg]
  by_cases hny : new = y
  · -- no position held `new`, so only position `i` holds it now
    subst hny
    rw [if_pos rfl, Option.some.injEq]
    by_cases hji : j = i
    · simp [hji]
    · rw [if_neg hji]
      refine ⟨fun e => absurd e.symm hji, fun hj => ?_⟩
      rw [(h new j).mpr hj] at hnew
      cases hnew
  · rw [if_neg hny]
    by_cases hji : j = i
    · -- position `i` was empty, so the map sent no name there
      subst hji
      rw [if_pos rfl, Option.some.injEq]
      refine ⟨fun hy => ?_, fun e => absurd e hny⟩
      rw [(h y j).mp hy] at hi
      cases hi
    · rw [if_neg hji]
      exact h y j

/-- Renaming the name at position `i` to one the map lacks moves its entry with it. -/
theorem agree_rename (h : ∀ (x : String) (j : Nat), idx[x]? = some j ↔ f j = some x)
    {old new : String} (hi : f i = some old) (hnew : idx[new]? = none)
    (hg : ∀ j, g j = if j = i then some new else f j) :
    ∀ (x : String) (j : Nat), ((idx.erase old).insert new i)[x]? = some j ↔ g j = some x := by
  -- first the position is emptied, then it takes the new name
  have hgone := agree_erase (g := fun j => if j = i then none else f j) h hi fun _ => rfl
  have hnew' : (idx.erase old)[new]? = none := by
    rw [Std.TreeMap.getElem?_erase]
    split
    · rfl
    · exact hnew
  refine agree_insert hgone (if_pos rfl) hnew' fun j => ?_
  rw [hg]
  by_cases hji : j = i <;> simp [hji]

end NameIndex

end SeriesCalc
