import Std.Data.TreeMap.Lemmas
import SeriesCalc.Value.Count

/-!
# Category labels of a string-valued series

A string-valued series stores numeric codes; its table maps code `k` (from 1) to the `k`-th
distinct label, and keeps an index from each label to its position. A label's code is read from
the index; a code's label from the labels. Interning a label returns its code, appending the
label and indexing it when it is new, so codes never change once given. Tables compare by their
labels in order.
-/

namespace SeriesCalc

/-- Distinct labels, label `i` (0-based) with code `i + 1`, and an index from each label to its
position. -/
structure Categories where
  labels : Array String := #[]
  index : Std.TreeMap String Nat := ∅
deriving Inhabited

namespace Categories

/-- Tables compare by their labels alone. -/
instance : BEq Categories := ⟨fun a b => a.labels == b.labels⟩

/-- The code of a label, if the index has it. -/
def codeOf? (t : Categories) (s : String) : Option Float :=
  t.index[s]?.map fun i => (i + 1).toFloat

/-- The code of `s`; a new label is appended, indexed, and given the new number of labels. -/
def intern (t : Categories) (s : String) : Categories × Float :=
  match t.codeOf? s with
  | some c => (t, c)
  | none =>
    ({ labels := t.labels.push s, index := t.index.insert s t.labels.size }, (t.labels.size + 1).toFloat)

/-- A table of the distinct labels of `ss`, in order of first occurrence. -/
def ofList (ss : List String) : Categories :=
  ss.foldl (fun t s => (t.intern s).1) {}

/-- The label of a code: codes are whole numbers from 1 up to the number of labels. -/
def label? (t : Categories) (code : Float) : Option String :=
  if !code.isWhole || code < 1 then none
  else t.labels[code.toCount - 1]?

def size (t : Categories) : Nat := t.labels.size

end Categories

end SeriesCalc
