import SeriesCalc.Eval.Linalg
import SeriesCalc.Eval.Select

/-!
# Matrices store what their shapes say

A matrix of shape `rows × cols` stores its entries in one array. The number of entries is a
word product (`Matrix.size`), so the honest relation between the two, for every matrix an
operation builds, is that the number of stored entries, taken as a word, is the word product of
the shape: `Matrix.Sound`. A shape whose product stays below `2^64` then has all its positions
stored; one whose product wraps may store far fewer.

* `Matrix.SameLayout m m'`: the same shape and as many entries. Writing entries (`setAt`, `set`,
  `setComplex`), promoting, demoting and relabelling the span keep the layout, and so does any
  fold of such writes (`SameLayout.foldl`); a matrix with the layout of a sound one is sound.
* The constructors that allocate the word product of their shape (`filled`, `zeros`, `transpose`,
  `realPart`, ...) and those that take an array with its own length as one dimension (`column`,
  `row`) build sound matrices; `imagPart` keeps the soundness of its argument.
* Every result of the linear algebra (`Linalg.matmul`, `solve`, `inverse`, `power`, `kron`,
  `hcat`, `vcat`) is sound, given sound operands where it returns one of them; so is every
  selection read from a sound matrix (`Selection.extract`), and a splice keeps the layout of the
  matrix it writes into.
-/

namespace SeriesCalc

/-- A bind of results that returns went through a first step that returned. -/
theorem Except.bind_eq_ok {ε α β : Type} {x : Except ε α} {f : α → Except ε β} {b : β}
    (h : x >>= f = .ok b) : ∃ a, x = .ok a ∧ f a = .ok b := by
  cases x with
  | error e => cases h
  | ok a => exact ⟨a, rfl, h⟩

namespace Word

theorem mul_lt (a b : Nat) : mul a b < modulus := Nat.mod_lt _ (Nat.two_pow_pos 64)

theorem wrap_of_lt {n : Nat} (h : n < modulus) : wrap n = n := Nat.mod_eq_of_lt h

@[simp] theorem wrap_mul (a b : Nat) : wrap (mul a b) = mul a b := Nat.mod_mod _ _

theorem mul_comm (a b : Nat) : mul a b = mul b a := by
  unfold mul
  rw [Nat.mul_comm]

@[simp] theorem mul_one (a : Nat) : mul a 1 = wrap a := by simp [mul]

@[simp] theorem one_mul (a : Nat) : mul 1 a = wrap a := by simp [mul]

end Word

namespace Matrix

/-- The stored entries, counted as a word, are the word product of the shape. -/
def Sound (m : Matrix) : Prop := Word.wrap m.entries.size = m.size

instance : DecidablePred Sound := fun m => inferInstanceAs (Decidable (Word.wrap m.entries.size = m.size))

/-- A matrix storing exactly the word product of its shape is sound. -/
theorem sound_of_size {m : Matrix} (h : m.entries.size = m.size) : m.Sound := by
  unfold Sound
  rw [h, size, Word.wrap_mul]

/-- Same shape and as many stored entries. -/
structure SameLayout (m m' : Matrix) : Prop where
  rows : m'.rows = m.rows
  cols : m'.cols = m.cols
  size : m'.entries.size = m.entries.size

namespace SameLayout

theorem refl (m : Matrix) : SameLayout m m := ⟨rfl, rfl, rfl⟩

theorem trans {a b c : Matrix} (hab : SameLayout a b) (hbc : SameLayout b c) : SameLayout a c :=
  ⟨hbc.rows.trans hab.rows, hbc.cols.trans hab.cols, hbc.size.trans hab.size⟩

theorem sound {m m' : Matrix} (h : SameLayout m m') (hm : m.Sound) : m'.Sound := by
  unfold Sound Matrix.size at *
  rw [h.rows, h.cols, h.size]
  exact hm

/-- A fold of writes that each keep the layout keeps it. -/
theorem foldl {α : Type} {f : Matrix → α → Matrix} (hf : ∀ m x, SameLayout m (f m x)) :
    ∀ (l : List α) (init : Matrix), SameLayout init (l.foldl f init)
  | [], init => refl init
  | x :: rest, init => (hf init x).trans (foldl hf rest (f init x))

end SameLayout

/-- A matrix with the layout of a sound one is sound. -/
theorem Sound.of_layout {m m' : Matrix} (h : m.Sound) (hl : SameLayout m m') : m'.Sound := hl.sound h

theorem sameLayout_promote (m : Matrix) : SameLayout m m.promote := by
  unfold promote
  split
  · rename_i xs h
    exact ⟨rfl, rfl, by simp [Entries.size, h]⟩
  · exact .refl m

theorem sameLayout_demoteIfReal (m : Matrix) : SameLayout m m.demoteIfReal := by
  unfold demoteIfReal
  split
  · rename_i zs h
    split
    · exact ⟨rfl, rfl, by simp [Entries.size, h]⟩
    · exact .refl m
  · exact .refl m

theorem sameLayout_setAt (m : Matrix) (k : Nat) (z : Complex) : SameLayout m (m.setAt k z) := by
  -- the write lands in the matrix or in its promoted copy, which has the same layout
  have hp : SameLayout m (if z.im != 0 then m.promote else m) := by
    split
    · exact sameLayout_promote m
    · exact .refl m
  unfold setAt
  split
  · rename_i r c xs span h
    rw [h] at hp
    exact hp.trans ⟨rfl, rfl, by simp [Entries.size]⟩
  · rename_i r c zs span h
    rw [h] at hp
    exact hp.trans ⟨rfl, rfl, by simp [Entries.size]⟩

theorem sameLayout_set (m : Matrix) (r c : Nat) (x : Float) : SameLayout m (m.set r c x) :=
  sameLayout_setAt _ _ _

theorem sameLayout_setComplex (m : Matrix) (r c : Nat) (z : Complex) :
    SameLayout m (m.setComplex r c z) :=
  sameLayout_setAt _ _ _

theorem sameLayout_span (m : Matrix) (s : Option Span) : SameLayout m { m with span := s } :=
  ⟨rfl, rfl, rfl⟩

theorem sound_filled (rows cols : Nat) (x : Float) : (filled rows cols x).Sound :=
  sound_of_size (by simp [filled, size, Entries.size])

theorem sound_zeros (rows cols : Nat) : (zeros rows cols).Sound := sound_filled _ _ _

theorem sound_empty : empty.Sound := sound_zeros _ _

theorem sound_ofScalar (x : Float) : (ofScalar x).Sound := sound_filled _ _ _

theorem sound_reshapeComplex (m : Matrix) (rows cols : Nat) : (m.reshapeComplex rows cols).Sound :=
  sound_of_size (by simp [reshapeComplex, size, Entries.size])

theorem sound_column (xs : Array Float) : (column xs).Sound := by
  simp [Sound, column, size, Entries.size]

theorem sound_row (xs : Array Float) : (row xs).Sound := by
  simp [Sound, row, size, Entries.size]

theorem sound_transpose (m : Matrix) : m.transpose.Sound := by
  -- the transpose stores the word product of `m`'s shape, which is that of its own
  have hsize : m.transpose.entries.size = m.size := by
    unfold transpose
    split <;> simp [Entries.size]
  unfold Sound
  rw [hsize, size, size, Word.wrap_mul, Word.mul_comm]
  unfold transpose
  split <;> rfl

theorem sound_realPart (m : Matrix) : m.realPart.Sound :=
  sound_of_size (by simp [realPart, size, Entries.size])

theorem Sound.imagPart {m : Matrix} (h : m.Sound) : m.imagPart.Sound := by
  unfold Matrix.imagPart
  split
  · rename_i xs hx
    refine SameLayout.sound (m := m) ⟨rfl, rfl, ?_⟩ h
    simp [Entries.size, hx]
  · rename_i zs hz
    refine SameLayout.sound (m := m) ⟨rfl, rfl, ?_⟩ h
    simp [Entries.size, hz]

end Matrix

namespace Linalg

open SeriesCalc.Matrix

theorem matmul_sound {a b r : Matrix} (h : matmul a b = .ok r) : r.Sound := by
  unfold matmul at h
  split at h
  · cases h
  split at h
  · cases h
  split at h
  · cases h
    exact sound_of_size (by simp [Entries.size, size])
  · cases h
    exact (sameLayout_demoteIfReal _).sound (sound_of_size (by simp [Entries.size, size]))

theorem identity_sound (n : Nat) : (identity n).Sound := by
  unfold identity
  split
  · exact (SameLayout.foldl (fun m i => sameLayout_set m i i 1) _ _).sound (sound_zeros n n)
  · exact sound_zeros n n

theorem solve_sound {a b x : Matrix} (h : solve a b = .ok x) : x.Sound := by
  unfold solve at h
  split at h
  · dsimp only at h
    split at h
    · cases h
    split at h
    · cases h
    split at h
    · cases h
    split at h
    · cases h
    · cases h
      -- back substitution writes into zeros of the result's shape, one entry at a time
      exact (SameLayout.foldl (fun x j => SameLayout.foldl (fun x i => sameLayout_set x i j _) _ x)
        _ _).sound (sound_zeros _ _)
  · cases h

theorem inverse_sound {a r : Matrix} (h : inverse a = .ok r) : r.Sound := by
  unfold inverse at h
  split at h
  · cases h
  split at h
  · cases h
  · exact solve_sound h

theorem transposed_sound {m r : Matrix} (h : transposed m = .ok r) : r.Sound := by
  unfold transposed at h
  split at h
  · cases h
  · cases h
    exact sound_transpose m

theorem rightDivide_sound {a b r : Matrix} (h : rightDivide a b = .ok r) : r.Sound := by
  unfold rightDivide at h
  split at h
  · cases h
  · simp only [bind, Except.bind] at h
    split at h
    · cases h
    split at h
    · cases h
    split at h
    · cases h
    · exact transposed_sound h

theorem power_go_sound :
    ∀ (fuel exp : Nat) {result base r : Matrix}, result.Sound →
      power.go fuel exp result base = .ok r → r.Sound
  | 0, _, _, _, _, hres, h => by
    cases h
    exact hres
  | fuel + 1, exp, result, base, r, hres, h => by
    unfold power.go at h
    split at h
    · cases h
      exact hres
    · -- the result is a product, or the one carried over
      dsimp only at h
      have step : ∀ {result' : Matrix}, result'.Sound →
          (if exp / 2 > 0 then matmul base base >>= power.go fuel (exp / 2) result'
            else pure base >>= power.go fuel (exp / 2) result') = .ok r → r.Sound := by
        intro result' hres' h'
        split at h' <;>
        · obtain ⟨_, -, h'⟩ := Except.bind_eq_ok h'
          exact power_go_sound fuel _ hres' h'
      split at h
      · obtain ⟨result', hresult, h⟩ := Except.bind_eq_ok h
        exact step (matmul_sound hresult) h
      · obtain ⟨result', hresult, h⟩ := Except.bind_eq_ok h
        cases hresult
        exact step hres h

theorem power_sound {a r : Matrix} {k : Float} (h : power a k = .ok r) : r.Sound := by
  unfold power at h
  split at h
  · cases h
  split at h
  · cases h
  split at h
  · cases h
  · exact power_go_sound 64 _ (identity_sound _) h

theorem kron_sound {a b r : Matrix} (h : kron a b = .ok r) : r.Sound := by
  unfold kron at h
  dsimp only [Matrix.shape] at h
  split at h
  · cases h
  split at h
  · cases h
  split at h
  · cases h
  · cases h
    have hout : SameLayout (zeros (a.rows * b.rows) (a.cols * b.cols))
        (if a.isComplex || b.isComplex then (zeros (a.rows * b.rows) (a.cols * b.cols)).promote
          else zeros (a.rows * b.rows) (a.cols * b.cols)) := by
      split
      · exact sameLayout_promote _
      · exact .refl _
    exact ((hout.trans (SameLayout.foldl (fun m x => sameLayout_setComplex m _ _ _) _ _))).sound
      (sound_zeros _ _)

/-- Side by side: an operand when the other is empty, else entries written into zeros of the
joint shape. -/
theorem hcat_sound {a b r : Matrix} (ha : a.Sound) (hb : b.Sound) (h : hcat a b = .ok r) : r.Sound := by
  unfold hcat at h
  dsimp only at h
  split at h
  · cases h
    exact hb
  split at h
  · cases h
    exact ha
  split at h
  · cases h
  split at h
  · cases h
  · cases h
    refine (SameLayout.foldl (fun m k => sameLayout_setAt m _ _) _ _).sound
      ((SameLayout.foldl (fun m k => sameLayout_setAt m _ _) _ _).sound ?_)
    split
    · exact (sameLayout_promote _).sound (sound_zeros _ _)
    · exact sound_zeros _ _

/-- Stacked: an operand when the other is empty, else zeros of the stacked shape, written
into. -/
theorem vcat_sound {a b r : Matrix} (ha : a.Sound) (hb : b.Sound) (h : vcat a b = .ok r) : r.Sound := by
  unfold vcat at h
  dsimp only at h
  split at h
  · cases h
    exact hb
  split at h
  · cases h
    exact ha
  split at h
  · cases h
  split at h
  · cases h
  split at h
  · cases h
    exact sound_zeros _ _
  · cases h
    refine (SameLayout.foldl (fun o j => (SameLayout.foldl (fun o i => sameLayout_setComplex o _ _ _) _ o).trans
      (SameLayout.foldl (fun o i => sameLayout_setComplex o _ _ _) _ _)) _ _).sound ?_
    split
    · exact (sameLayout_promote _).sound (sound_zeros _ _)
    · exact sound_zeros _ _

end Linalg

namespace Selection

open SeriesCalc.Matrix

/-- A selection read from a sound matrix is sound. -/
theorem sound_extract {m : Matrix} (hm : m.Sound) (sel : Selection) : (extract m sel).Sound := by
  unfold extract
  split
  · exact sound_realPart m
  · exact hm.imagPart
  · refine (SameLayout.foldl (fun o x => sameLayout_setAt o _ _) _ _).sound ?_
    split
    · exact (sameLayout_promote _).sound (sound_zeros _ _)
    · exact sound_zeros _ _

/-- A splice writes into the matrix it is given, keeping its layout. -/
theorem splice_sameLayout {m block r : Matrix} {sel : Selection} (h : splice m sel block = .ok r) :
    SameLayout m r := by
  unfold splice at h
  dsimp only at h
  split at h
  · split at h
    · cases h
    · cases h
      exact (SameLayout.foldl (fun o k => sameLayout_setAt o _ _) _ _).trans (sameLayout_demoteIfReal _)
  · split at h
    · cases h
    split at h
    · cases h
    · cases h
      exact SameLayout.foldl (fun o x => sameLayout_setAt o _ _) _ _

end Selection

end SeriesCalc
