/-!
# Sizes and positions as 64-bit words

Counts, positions and shapes are unsigned 64-bit words: arithmetic on them wraps around
modulo `2^64`, and a word read as a signed number is its two's complement. A request may
carry any word, so shapes whose product does not fit, or a position at the very top of the
range, behave as the word arithmetic says: `(2^64 - 1) + 1` is `0`, `2^32 · 2^32` is `0`.

* `Word.add`, `Word.mul`: wrapping sum and product of words.
* `Word.signed`: a word as a signed 64-bit number.
* `Word.wrapSigned`: a signed result brought back into the signed 64-bit range.
* `Word.truncSigned32`: the low 32 bits of a signed number, as a signed 32-bit number.
* `Overrun`: an access past the end of stored data.
-/

namespace SeriesCalc

namespace Word

/-- The number of words, `2^64`. -/
def modulus : Nat := Nat.pow 2 64

/-- Half the number of words, `2^63`: the least word whose signed reading is negative. -/
def half : Nat := Nat.pow 2 63

/-- A number reduced to a word. -/
def wrap (n : Nat) : Nat := n % modulus

/-- Whether a number is a word. -/
def fits (n : Nat) : Bool := n < modulus

/-- Wrapping sum. -/
def add (a b : Nat) : Nat := wrap (a + b)

/-- Wrapping product. -/
def mul (a b : Nat) : Nat := wrap (a * b)

/-- A word read as a signed 64-bit number. -/
def signed (n : Nat) : Int :=
  let w := wrap n
  if w < half then (w : Int) else (w : Int) - (modulus : Int)

/-- A signed number brought into the signed 64-bit range by wrapping. -/
def wrapSigned (i : Int) : Int :=
  let w := (i % (modulus : Int)).toNat
  signed w

/-- The low 32 bits of a signed number, read as a signed 32-bit number. -/
def truncSigned32 (i : Int) : Int :=
  let w := (i % (Nat.pow 2 32 : Int)).toNat
  if w < Nat.pow 2 31 then (w : Int) else (w : Int) - (Nat.pow 2 32 : Int)

/-- Whether a signed number lies in the signed 64-bit range. -/
def fitsSigned (i : Int) : Bool := -(half : Int) ≤ i && i < (half : Int)

end Word

/-- An access past the end of stored data: how many items are stored and the position asked
for. A matrix whose shape's product passes a word stores only the wrapped product of entries,
so walking its shape runs into one. -/
structure Overrun where
  len : Nat
  index : Nat
deriving DecidableEq, BEq, Inhabited, Repr

namespace Overrun

/-- An access at position `k` of data holding `len` items, if it is past the end. -/
def at? (len k : Nat) : Option Overrun := if k < len then none else some ⟨len, k⟩

/-- The overrun of the first of the steps `t, t + 1, …` that has one, looking at no more than
`fuel` steps. -/
def find (step : Nat → Option Overrun) : Nat → Nat → Option Overrun
  | 0, _ => none
  | fuel + 1, t =>
    match step t with
    | some o => some o
    | none => find step fuel (t + 1)

end Overrun

end SeriesCalc
