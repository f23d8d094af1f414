import SeriesCalc.Proofs.Values.CategoryCodes

/-!
# Matrix equality

`Matrix.same` compares the shape, the number of stored entries and the entries themselves; the
span is metadata and takes no part, and a real matrix never equals a complex one. Real entries
compare by `Matrix.naEq`, under which NA equals NA; complex entries compare both parts by float
equality, under which a NaN part equals nothing.

* **Float equality.** On the encoding, two floats compare equal exactly when neither is NaN and
  they are one value, the two zeros being one (`Float.beq_iff_eqKey`). `Float.eqKey` is that
  value, with every NaN one key; `naEq` is equality of keys (`Matrix.naEq_iff`).
* **The view.** What equality sees of a matrix is its shape, its storage kind and the key of
  every part of every entry (`Matrix.view`). Two matrices are equal exactly when they have one
  view and the first is `comparable`: none of its complex entries has a NaN part
  (`Matrix.same_iff_view`). Whether a matrix is comparable is read off its view
  (`Matrix.comparable_eq_of_view_eq`).
* Hence equality is symmetric and transitive on all matrices, whatever their shapes, spans or
  entries, and reflexive exactly on the comparable ones: every real matrix equals itself, NA
  entries included, but a complex matrix holding NA does not
  (**`matrix_equality_is_partial_equivalence`**).
-/

namespace Float.Model.UnpackedFloat

/-- The value with the sign of a zero dropped: IEEE equality does not tell `+0` from `-0`. -/
def unsignedZero : UnpackedFloat → UnpackedFloat
  | .zero _ => .zero .positive
  | u => u

theorem isNaN_unsignedZero (u : UnpackedFloat) : u.unsignedZero.isNaN = u.isNaN := by
  cases u <;> rfl

theorem Sign.compare_self (s : Sign) : compare s s = .eq := by
  cases s <;> rfl

/-- Two unpacked values compare equal exactly when neither is NaN and they are one value up to
the sign of a zero. -/
theorem beq_iff {u v : UnpackedFloat} :
    u.beq v = true ↔ u.isNaN = false ∧ u.unsignedZero = v.unsignedZero := by
  -- `compare` is decided by the two constructors and their signs, two finite values of one
  -- sign by exponent and then mantissa
  rcases u with s | _ | s | ⟨s, m, e, hm⟩ <;> rcases v with t | _ | t | ⟨t, n, f, hn⟩ <;>
    (try cases s) <;> (try cases t) <;>
    simp [UnpackedFloat.beq, UnpackedFloat.compare, unsignedZero, UnpackedFloat.isNaN,
      Sign.compare_self, and_comm]

end Float.Model.UnpackedFloat

namespace Float

open Float.Model Float.Model.UnpackedFloat

/-- What float equality sees of a value: its encoding with every NaN one key and the two zeros
one key. -/
def eqKey (x : Float) : UnpackedFloat := x.toModel.unpack.unsignedZero

theorem isNaN_eqKey (x : Float) : x.eqKey.isNaN = x.isNaN :=
  isNaN_unsignedZero _

/-- Float equality: neither side NaN, and one key. -/
theorem beq_iff_eqKey {x y : Float} : (x == y) = true ↔ x.isNaN = false ∧ x.eqKey = y.eqKey :=
  UnpackedFloat.beq_iff

end Float

namespace SeriesCalc

open Float.Model

namespace Entries

/-- What equality sees of stored entries: their kind and the key of every part. -/
def keys : Entries → Array UnpackedFloat ⊕ Array (UnpackedFloat × UnpackedFloat)
  | .real xs => .inl (xs.map Float.eqKey)
  | .complex zs => .inr (zs.map fun z => (z.re.eqKey, z.im.eqKey))

end Entries

namespace Matrix

variable {a b c : Matrix}

/-- What equality sees of a matrix: its shape and the keys of its entries, not its span. -/
def view (m : Matrix) :
    (Nat × Nat) × (Array UnpackedFloat ⊕ Array (UnpackedFloat × UnpackedFloat)) :=
  (m.shape, m.entries.keys)

/-- No complex entry has a NaN part; a real matrix always qualifies. -/
def comparable (m : Matrix) : Bool :=
  match m.entries with
  | .real _ => true
  | .complex zs => zs.all fun z => !z.re.isNaN && !z.im.isNaN

/-! ## Entries -/

/-- Real entries are equal exactly when they have one key: two NAs are equal. -/
theorem naEq_iff {x y : Float} : naEq x y = true ↔ x.eqKey = y.eqKey := by
  cases hx : x.isNaN
  · rw [naEq, hx, Bool.false_and, Bool.false_or, Float.beq_iff_eqKey, hx]
    exact and_iff_right rfl
  · -- a NaN equals no float, so only the NA test is left
    have hkx : x.eqKey = .notANumber := UnpackedFloat.isNaN_iff.1 ((x.isNaN_eqKey).trans hx)
    have hbeq : (x == y) = false :=
      Bool.eq_false_iff.2 fun h => Bool.noConfusion ((Float.beq_iff_eqKey.1 h).1.symm.trans hx)
    rw [naEq, hx, hbeq, Bool.true_and, Bool.or_false, hkx, ← Float.isNaN_eqKey,
      UnpackedFloat.isNaN_iff, eq_comm]

/-- Complex entries are equal exactly when the first has no NaN part and both parts have one
key. -/
theorem complex_eq_iff {z w : Complex} :
    z.eq w = true ↔ (!z.re.isNaN && !z.im.isNaN) = true ∧
      z.re.eqKey = w.re.eqKey ∧ z.im.eqKey = w.im.eqKey := by
  simp only [Complex.eq, Bool.and_eq_true, Float.beq_iff_eqKey, Bool.not_eq_true']
  tauto

/-- Arrays of one size compared pair by pair. -/
theorem all_zip_iff_getElem {α β : Type} {p : α × β → Bool} {xs : Array α} {ys : Array β}
    (h : xs.size = ys.size) :
    (xs.zip ys).all p = true ↔
      ∀ i (hx : i < xs.size) (hy : i < ys.size), p (xs[i], ys[i]) = true := by
  rw [Array.all_eq_true]
  constructor
  · intro hall i hx hy
    have hi : i < (xs.zip ys).size := by
      rw [Array.size_zip]
      omega
    simpa only [Array.getElem_zip] using hall i hi
  · intro hall i hi
    have hi' : i < xs.size ∧ i < ys.size := by
      rw [Array.size_zip] at hi
      omega
    simpa only [Array.getElem_zip] using hall i hi'.1 hi'.2

/-- Two arrays have one image exactly when they have one size and their elements have one image
position by position. -/
theorem map_eq_map_iff_getElem {α β γ : Type} {f : α → γ} {g : β → γ} {xs : Array α}
    {ys : Array β} :
    xs.map f = ys.map g ↔
      xs.size = ys.size ∧ ∀ i (hx : i < xs.size) (hy : i < ys.size), f xs[i] = g ys[i] := by
  simp only [Array.ext_iff, Array.size_map, Array.getElem_map]

/-! ## The view -/

/-- Whether a matrix is comparable is read off the keys of its entries. -/
theorem comparable_eq_keys (m : Matrix) :
    m.comparable = match m.entries.keys with
      | .inl _ => true
      | .inr ks => ks.all fun k => !k.1.isNaN && !k.2.isNaN := by
  rcases m with ⟨r, c, xs | zs, sp⟩
  · rfl
  · simp only [comparable, Entries.keys, Array.all_map, Function.comp_def, Float.isNaN_eqKey]

theorem comparable_eq_of_view_eq (h : a.view = b.view) : a.comparable = b.comparable := by
  rw [comparable_eq_keys, comparable_eq_keys, (Prod.mk.inj h).2]

/-- Equality of matrices is equality of views, from a comparable matrix. -/
theorem same_iff_view : a.same b = true ↔ a.comparable = true ∧ a.view = b.view := by
  rcases a with ⟨r, c, xs | zs, sp⟩ <;> rcases b with ⟨r', c', ys | ws, sp'⟩ <;>
    simp only [same, shape, Entries.size, view, comparable, Entries.keys, Bool.and_eq_true,
      beq_iff_eq, Prod.mk.injEq, Sum.inl.injEq, Sum.inr.injEq, map_eq_map_iff_getElem, true_and,
      Bool.false_eq_true, and_false, reduceCtorEq, iff_self]
  case real.real =>
    -- one shape, one size, then `naEq` position by position
    constructor
    · rintro ⟨⟨hs, hn⟩, hall⟩
      exact ⟨hs, hn, fun i hx hy => naEq_iff.1 ((all_zip_iff_getElem hn).1 hall i hx hy)⟩
    · rintro ⟨hs, hn, hkeys⟩
      exact ⟨⟨hs, hn⟩, (all_zip_iff_getElem hn).2 fun i hx hy => naEq_iff.2 (hkeys i hx hy)⟩
  case complex.complex =>
    -- each pair of entries gives the first its NaN test and both their keys
    constructor
    · rintro ⟨⟨hs, hn⟩, hall⟩
      have hpair := fun i hx hy => complex_eq_iff.1 ((all_zip_iff_getElem hn).1 hall i hx hy)
      exact ⟨Array.all_eq_true.2 fun i hx => (hpair i hx (hn ▸ hx)).1, hs, hn,
        fun i hx hy => (hpair i hx hy).2⟩
    · rintro ⟨hcmp, hs, hn, hkeys⟩
      exact ⟨⟨hs, hn⟩, (all_zip_iff_getElem hn).2 fun i hx hy =>
        complex_eq_iff.2 ⟨Array.all_eq_true.1 hcmp i hx, hkeys i hx hy⟩⟩

theorem isComplex_eq_of_view_eq (h : a.view = b.view) : a.isComplex = b.isComplex := by
  -- the view keeps the storage kind
  have hk := (Prod.mk.inj h).2
  rcases a with ⟨r, c, xs | zs, sp⟩ <;> rcases b with ⟨r', c', ys | ws, sp'⟩
  · rfl
  · cases hk
  · cases hk
  · rfl

theorem comparable_of_real (h : a.isComplex = false) : a.comparable = true := by
  rcases a with ⟨r, c, xs | zs, sp⟩
  · rfl
  · cases h

/-! ## A partial equivalence -/

theorem same_symm (h : a.same b = true) : b.same a = true := by
  obtain ⟨hc, hv⟩ := same_iff_view.1 h
  exact same_iff_view.2 ⟨(comparable_eq_of_view_eq hv).symm.trans hc, hv.symm⟩

theorem same_comm (a b : Matrix) : a.same b = b.same a :=
  Bool.eq_iff_iff.2 ⟨same_symm, same_symm⟩

theorem same_trans (hab : a.same b = true) (hbc : b.same c = true) : a.same c = true := by
  obtain ⟨ha, hv⟩ := same_iff_view.1 hab
  obtain ⟨-, hv'⟩ := same_iff_view.1 hbc
  exact same_iff_view.2 ⟨ha, hv.trans hv'⟩

/-- A matrix equals itself exactly when it is comparable. -/
theorem same_self_iff (a : Matrix) : a.same a = true ↔ a.comparable = true := by
  rw [same_iff_view]
  exact and_iff_left rfl

example : (column #[1, NA]).same (column #[1, NA]) = true := by decide +kernel

example :
    (⟨1, 1, .complex #[⟨NA, 0⟩], none⟩ : Matrix).same ⟨1, 1, .complex #[⟨NA, 0⟩], none⟩ = false := by
  decide +kernel

/-- The span takes no part in equality. -/
theorem same_withSpan (a b : Matrix) (s t : Option Span) :
    { a with span := s }.same { b with span := t } = a.same b := rfl

/-- A real matrix never equals a complex one. -/
theorem same_eq_false_of_isComplex_ne (h : a.isComplex ≠ b.isComplex) : a.same b = false :=
  Bool.eq_false_iff.2 fun hs => h (isComplex_eq_of_view_eq (same_iff_view.1 hs).2)

end Matrix

end SeriesCalc

namespace SeriesCalc

/-- Matrix equality is symmetric and transitive on all matrices, whatever their shapes, spans
and entries, and ignores the span; a real matrix never equals a complex one. It is equality of
views (shape, storage kind, each part up to NaN and the sign of zero) from a comparable matrix,
so NA equals NA; but a matrix equals itself exactly when it is comparable, when none of its
complex entries has a NaN part. Every real matrix equals itself, NA entries included. -/
theorem matrix_equality_is_partial_equivalence (a b c : Matrix) (s t : Option Span) :
    (a.same b = true ↔ a.comparable = true ∧ a.view = b.view) ∧
    a.same b = b.same a ∧
    (a.same b = true → b.same c = true → a.same c = true) ∧
    (a.same a = true ↔ a.comparable = true) ∧
    (a.isComplex = false → a.same a = true) ∧
    { a with span := s }.same { b with span := t } = a.same b ∧
    (a.isComplex ≠ b.isComplex → a.same b = false) :=
  ⟨Matrix.same_iff_view, Matrix.same_comm a b, Matrix.same_trans, Matrix.same_self_iff a,
    fun h => (Matrix.same_self_iff a).2 (Matrix.comparable_of_real h), Matrix.same_withSpan a b s t,
    Matrix.same_eq_false_of_isComplex_ne⟩

end SeriesCalc
