import Mathlib.Data.List.Induction
import Mathlib.Data.List.Nodup
import SeriesCalc.Data.Dataset
import SeriesCalc.Data.Index

/-!
# Indexes of names

A dataset keeps an index from each series name to the series' position, and a category table one
from each label to its position. `Indexes idx names`: the index gives each name exactly its
position in the list. The operations that change the list change the index with it, and keep the
agreement:

* a new name at the end, indexed to the old length (`Indexes.push`: adding a series, interning a
  new label);
* a name replaced in place, the old one taken out of the index and the new one indexed to the
  position (`Indexes.rename`: renaming a series);
* the index built afresh, each name in turn under its position when that fits an id
  (`indexes_nameIndex`: deleting a series).

The first two are the steps `NameIndex.agree_insert` and `NameIndex.agree_rename`, read on a
list. An index that agrees with a list makes the list's names distinct (`Indexes.nodup`).
-/

namespace SeriesCalc

/-- The index `idx` gives each name exactly its position in `names`. -/
def Indexes (idx : Std.TreeMap String Nat) (names : List String) : Prop :=
  ∀ (x : String) (i : Nat), idx[x]? = some i ↔ names[i]? = some x

namespace Indexes

variable {idx : Std.TreeMap String Nat} {names : List String}

theorem empty : Indexes ∅ [] := by
  intro x i
  simp

/-- A name is missing from the index exactly when the list does not hold it. -/
theorem getElem?_eq_none_iff (h : Indexes idx names) {x : String} :
    idx[x]? = none ↔ x ∉ names := by
  rw [List.mem_iff_getElem?]
  constructor
  · rintro hx ⟨i, hi⟩
    rw [(h x i).mpr hi] at hx
    cases hx
  · intro hx
    cases hl : idx[x]? with
    | none => rfl
    | some i => exact absurd ⟨i, (h x i).mp hl⟩ hx

/-- No name appears twice in a list an index agrees with. -/
theorem nodup (h : Indexes idx names) : names.Nodup := by
  rw [List.nodup_iff_getElem?_ne_getElem?]
  intro i j hij hj he
  have hx : names[j]? = some names[j] := List.getElem?_eq_getElem hj
  have hi := (h _ i).mpr (he.trans hx)
  rw [(h _ j).mpr hx, Option.some.injEq] at hi
  omega

/-- A new name at the end, indexed to its position. -/
theorem push (h : Indexes idx names) {x : String} (hx : idx[x]? = none) :
    Indexes (idx.insert x names.length) (names ++ [x]) := by
  refine NameIndex.agree_insert h (List.getElem?_eq_none (Nat.le_refl _)) hx fun j => ?_
  rcases Nat.lt_trichotomy j names.length with hj | rfl | hj
  · rw [List.getElem?_append_left hj, if_neg (Nat.ne_of_lt hj)]
  · rw [List.getElem?_concat_length, if_pos rfl]
  · rw [if_neg (Nat.ne_of_gt hj), List.getElem?_eq_none (by simp; omega),
      List.getElem?_eq_none (by omega)]

/-- The name at position `i` replaced by a new one, which takes over the position in the index. -/
theorem rename (h : Indexes idx names) {i : Nat} {old new : String} (hi : names[i]? = some old)
    (hnew : idx[new]? = none) : Indexes ((idx.erase old).insert new i) (names.set i new) := by
  have hlt : i < names.length := (List.getElem?_eq_some_iff.mp hi).1
  refine NameIndex.agree_rename h hi hnew fun j => ?_
  rw [List.getElem?_set, if_pos hlt]
  by_cases hij : i = j
  · rw [if_pos hij, if_pos hij.symm]
  · rw [if_neg hij, if_neg (Ne.symm hij)]

end Indexes

/-! ## The index a delete rebuilds -/

/-- Rebuilding over one more series indexes it too, when its position fits an id. -/
theorem Series.nameIndex_concat (l : List Series) (s : Series) :
    Series.nameIndex ⟨l ++ [s]⟩ =
      if l.length < idLimit then (Series.nameIndex ⟨l⟩).insert s.name l.length
      else Series.nameIndex ⟨l⟩ := by
  simp [Series.nameIndex, List.zipIdx_append, List.foldl_append]

/-- Rebuilt over series with distinct names, no more of them than ids, the index agrees with
the names. -/
theorem indexes_nameIndex (ss : Array Series) (hnd : (ss.toList.map Series.name).Nodup)
    (hfit : ss.size ≤ idLimit) : Indexes (Series.nameIndex ss) (ss.toList.map Series.name) := by
  obtain ⟨l⟩ := ss
  simp only [List.size_toArray] at hfit
  simp only at hnd ⊢
  induction l using List.reverseRec with
  | nil => exact Indexes.empty
  | append_singleton l s ih =>
    simp only [List.length_append, List.length_singleton] at hfit
    simp only [List.map_append, List.map_singleton] at hnd ⊢
    have hl := ih (hnd.sublist (List.sublist_append_left _ _)) (by omega)
    have hs : s.name ∉ l.map Series.name := by
      intro hmem
      exact (List.nodup_append.mp hnd).2.2 _ hmem _ List.mem_cons_self rfl
    rw [Series.nameIndex_concat, if_pos (by omega)]
    simpa using hl.push (hl.getElem?_eq_none_iff.mpr hs)

end SeriesCalc
