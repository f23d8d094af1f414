import SeriesCalc.Proofs.Lags

/-!
# Counts held exactly by floats

Indices, category codes and lengths meet as binary64 numbers: an index `x` is accepted for a
length `len` when it is whole, at least 1 and at most `len.toFloat`, and is then read as the
count `x.toCount`. This module reads those tests off the encoding (`Float.toModel.unpack`) and
shows that below `2^53`, where every count is a float exactly, they say what they mean.

* **Encodings.** A finite value read off a bit pattern is normal (a 53-bit mantissa) or
  subnormal (`Float.Canonical`); two floats that read as the same normal value are the same
  float (`Float.eq_of_unpack_normal`), and a normal value written out reads back as itself
  (`Float.unpack_pack_normal`).
* **Exact counts.** `n.toFloat` for `n < 2^53` is `n` shifted to a 53-bit mantissa
  (`Float.unpack_toFloat`); such floats compare as their counts (`Float.toFloat_lt_toFloat`),
  are whole, and truncate back to their counts (`Float.toCount_toFloat`).
* **Whole values.** A whole value that is not below 1 is such a count, or is at least `2^53`
  and above all of them (`Float.whole_cases`). Hence, for `len < 2^53`, the index test holds of
  exactly the floats of the counts `1..len` (`Float.isIndex_iff`).
-/

open Float.Model Float.Model.UnpackedFloat

namespace Float

/-! ## Encodings -/

/-- The sign bit a sign is written with. -/
def signBit : Sign → Nat
  | .positive => 0
  | .negative => 1

theorem signBit_ofBitVec (v : BitVec 1) : signBit (Sign.ofBitVec v) = v.toNat := by
  unfold Sign.ofBitVec
  split
  · rename_i h
    simp [h, signBit]
  · rename_i h
    have : v.toNat ≠ 0 := fun h0 => h (BitVec.eq_of_toNat_eq (by simpa using h0))
    have : v.toNat < 2 := v.isLt
    simp only [signBit]
    omega

theorem toNat_toBitVec (s : Sign) : s.toBitVec.toNat = signBit s := by
  cases s <;> rfl

theorem toNat_append_one {w : Nat} (v : BitVec w) : (1#1 ++ v).toNat = 2 ^ w + v.toNat := by
  rw [BitVec.toNat_append, ← Nat.shiftLeft_add_eq_or_of_lt v.isLt]
  simp [Nat.shiftLeft_eq]

theorem toNat_unpackMantissa (b : BitVec 64) :
    (@unpackMantissa Format.binary64 b).toNat = b.toNat % 2 ^ 52 := by
  simp [unpackMantissa]

theorem toNat_unpackExponent (b : BitVec 64) :
    (@unpackExponent Format.binary64 b).toNat = b.toNat / 2 ^ 52 % 2 ^ 11 := by
  simp [unpackExponent, Nat.shiftRight_eq_div_pow]

theorem toNat_unpackSign (b : BitVec 64) :
    (@unpackSign Format.binary64 b).toNat = b.toNat / 2 ^ 63 := by
  have hb := b.isLt
  simp [unpackSign, Nat.shiftRight_eq_div_pow]
  omega

theorem toNat_packComponents (s : Sign) (ev : BitVec 11) (mv : BitVec 52) :
    (packComponents Format.binary64 s ev mv).toNat =
      signBit s * 2 ^ 63 + ev.toNat * 2 ^ 52 + mv.toNat := by
  unfold packComponents
  rw [BitVec.toNat_append, BitVec.toNat_append, ← Nat.shiftLeft_add_eq_or_of_lt ev.isLt,
    ← Nat.shiftLeft_add_eq_or_of_lt mv.isLt, toNat_toBitVec]
  simp only [Nat.shiftLeft_eq]
  omega

/-- The sign field of a packed value is the sign it was packed with. -/
theorem unpackSign_packComponents (s : Sign) (ev : BitVec 11) (mv : BitVec 52) :
    Sign.ofBitVec (unpackSign (packComponents Format.binary64 s ev mv)) = s := by
  have h := signBit_ofBitVec (unpackSign (packComponents Format.binary64 s ev mv))
  rw [toNat_unpackSign, toNat_packComponents] at h
  have := ev.isLt
  have := mv.isLt
  cases s <;> cases hs : Sign.ofBitVec (unpackSign (packComponents Format.binary64 _ ev mv)) <;>
    simp_all [signBit]

/-- The bits of a normal value: sign, biased exponent and the mantissa without its leading bit. -/
theorem toNat_of_unpack_normal {b : BitVec 64} {s : Sign} {m : Nat} {e : Int} {hm0 : 0 < m}
    (hu : UnpackedFloat.unpack Format.binary64 b = .finite s m e hm0) (hm : 2 ^ 52 ≤ m) :
    b.toNat = signBit s * 2 ^ 63 + (e + 1075).toNat * 2 ^ 52 + (m - 2 ^ 52) := by
  have hb := b.isLt
  unfold UnpackedFloat.unpack at hu
  dsimp only at hu
  split at hu
  · split at hu <;> cases hu
  · split at hu
    · split at hu
      · cases hu
      · -- a subnormal mantissa has fewer than 53 bits
        cases hu
        have := (@unpackMantissa Format.binary64 b).isLt
        simp at hm
        omega
    · cases hu
      rw [signBit_ofBitVec, toNat_append_one, toNat_unpackSign, toNat_unpackMantissa]
      have hbias : ((Format.binary64.exponentBias : Nat) : Int) +
          ((Format.binary64.mantissaBitsWithoutImplicit : Nat) : Int) = 1075 := rfl
      have hw : (2 : Nat) ^ Format.binary64.mantissaBitsWithoutImplicit = 2 ^ 52 := rfl
      rw [hbias, hw, toNat_unpackExponent]
      omega

/-- Two floats that read as the same normal value are the same float. -/
theorem eq_of_unpack_normal {x y : Float} {s : Sign} {m : Nat} {e : Int} {hm0 : 0 < m}
    (hx : x.toModel.unpack = .finite s m e hm0) (hy : y.toModel.unpack = .finite s m e hm0)
    (hm : 2 ^ 52 ≤ m) : x = y := by
  have hbits : x.toModel.toBits.toBitVec = y.toModel.toBits.toBitVec :=
    BitVec.eq_of_toNat_eq ((toNat_of_unpack_normal hx hm).trans (toNat_of_unpack_normal hy hm).symm)
  obtain ⟨⟨⟨bx⟩, vx⟩⟩ := x
  obtain ⟨⟨⟨b⟩, vy⟩⟩ := y
  cases hbits
  rfl

/-- The values an encoding reads as: a finite value has a mantissa of exactly 53 bits, or is
subnormal, with fewer bits at the least exponent. -/
inductive Canonical : UnpackedFloat → Prop
  | notANumber : Canonical .notANumber
  | infinity (s : Sign) : Canonical (.infinity s)
  | zero (s : Sign) : Canonical (.zero s)
  | subnormal (s : Sign) (m : Nat) (h : 0 < m) (hm : m < 2 ^ 52) :
      Canonical (.finite s m (-1074) h)
  | normal (s : Sign) (m : Nat) (e : Int) (h : 0 < m) (hlo : 2 ^ 52 ≤ m) (hhi : m < 2 ^ 53) :
      Canonical (.finite s m e h)

theorem canonical_unpack (x : Float) : Canonical x.toModel.unpack := by
  have hmant : (@unpackMantissa Format.binary64 x.toModel.toBits.toBitVec).toNat < 2 ^ 52 := by
    rw [toNat_unpackMantissa]
    omega
  have hnorm := toNat_append_one (@unpackMantissa Format.binary64 x.toModel.toBits.toBitVec)
  have hw : (2 : Nat) ^ Format.binary64.mantissaBitsWithoutImplicit = 2 ^ 52 := rfl
  rw [hw] at hnorm
  show Canonical (UnpackedFloat.unpack Format.binary64 x.toModel.toBits.toBitVec)
  unfold UnpackedFloat.unpack
  dsimp only
  split
  · split
    · exact .infinity _
    · exact .notANumber
  · split
    · rename_i hz
      split
      · exact .zero _
      · rw [hz]
        exact .subnormal _ _ _ hmant
    · exact .normal _ _ _ _ (by omega) (by omega)

/-- A normal value written out and read back is the same value. -/
theorem unpack_pack_normal (s : Sign) {m : Nat} {e : Int} (hm0 : 0 < m) (hm : 2 ^ 52 ≤ m)
    (hm' : m < 2 ^ 53) (he : -1074 ≤ e) (he' : e ≤ 971) :
    UnpackedFloat.unpack Format.binary64 (UnpackedFloat.pack Format.binary64 (.finite s m e hm0)) =
      .finite s m e hm0 := by
  have hlog : m.log2 + 1 = Format.binary64.mantissaBits := by
    have h1 : 52 ≤ m.log2 := (Nat.le_log2 (by omega)).mpr hm
    have h2 : m.log2 < 53 := (Nat.log2_lt (by omega)).mpr hm'
    show m.log2 + 1 = 53
    omega
  have hbias : e + Format.binary64.exponentBias + Format.binary64.mantissaBitsWithoutImplicit =
      e + 1075 := by
    show e + ((2 ^ (11 - 1) - 1 : Nat) : Int) + ((52 : Nat) : Int) = e + 1075
    omega
  have hfit : ¬ 2 ^ Format.binary64.exponentBits ≤ (e + 1075).toNat + 1 := by
    show ¬ 2 ^ 11 ≤ (e + 1075).toNat + 1
    omega
  unfold UnpackedFloat.pack
  dsimp only
  rw [hbias, if_neg hfit, if_pos hlog]
  -- read the fields back: the biased exponent is neither all ones nor zero
  have hE : (BitVec.ofNat 11 (e + 1075).toNat).toNat = (e + 1075).toNat := by
    rw [BitVec.toNat_ofNat]
    omega
  have hne1 : BitVec.ofNat 11 (e + 1075).toNat ≠ -1#_ := by
    intro h
    have := congrArg BitVec.toNat h
    rw [hE] at this
    simp at this
    omega
  have hne0 : BitVec.ofNat 11 (e + 1075).toNat ≠ 0#_ := by
    intro h
    have := congrArg BitVec.toNat h
    rw [hE] at this
    simp at this
    omega
  have hM : (1#1 ++ BitVec.ofNat 52 m).toNat = m := by
    rw [toNat_append_one, BitVec.toNat_ofNat]
    omega
  have he1 : (((BitVec.ofNat 11 (e + 1075).toNat).toNat : Nat) : Int) -
      ((Format.binary64.exponentBias : Nat) + (Format.binary64.mantissaBitsWithoutImplicit : Nat) : Int) =
        e := by
    rw [hE]
    show (((e + 1075).toNat : Nat) : Int) - ((1023 : Nat) + (52 : Nat) : Int) = e
    omega
  unfold UnpackedFloat.unpack
  simp only [unpackMantissa_packComponents, unpackExponent_packComponents, unpackSign_packComponents,
    if_neg hne1, if_neg hne0]
  simp only [hM, he1]

theorem unpack_pack_model (u : UnpackedFloat) :
    (Float.Model.pack u).unpack =
      UnpackedFloat.unpack Format.binary64 (UnpackedFloat.pack Format.binary64 u) := rfl

/-! ## Counts below `2^53` are exact -/

/-- Shifting out `k` zero bits is exact: nothing is rounded away. -/
theorem repeat_shiftRightOne_exact (m k : Nat) :
    Nat.repeat ExtendedMantissa.shiftRightOne k ⟨m * 2 ^ k, false, false⟩ = ⟨m, false, false⟩ := by
  induction k generalizing m with
  | zero => simp [Nat.repeat]
  | succ k ih =>
    have h := ih (m * 2)
    rw [Nat.mul_assoc, ← Nat.pow_succ'] at h
    rw [Nat.repeat, h]
    simp [ExtendedMantissa.shiftRightOne]

/-- Shifting keeps the quotient by the power of two, whatever is rounded away. -/
theorem mantissa_repeat_shiftRightOne (em : ExtendedMantissa) (k : Nat) :
    (Nat.repeat ExtendedMantissa.shiftRightOne k em).mantissa = em.mantissa / 2 ^ k := by
  induction k with
  | zero => simp [Nat.repeat]
  | succ k ih =>
    rw [Nat.repeat]
    simp only [ExtendedMantissa.shiftRightOne, ih, Nat.div_div_eq_div_mul, Nat.pow_succ]

theorem log2_mul_pow {m : Nat} (k : Nat) (hm : 2 ^ 52 ≤ m) (hm' : m < 2 ^ 53) :
    (m * 2 ^ k).log2 = 52 + k := by
  have hpos : m * 2 ^ k ≠ 0 := Nat.mul_ne_zero (by omega) (Nat.pos_iff_ne_zero.mp (Nat.two_pow_pos k))
  have h1 : 52 + k ≤ (m * 2 ^ k).log2 := by
    rw [Nat.le_log2 hpos, Nat.pow_add]
    exact Nat.mul_le_mul_right _ hm
  have h2 : (m * 2 ^ k).log2 < 53 + k := by
    rw [Nat.log2_lt hpos, Nat.pow_add]
    exact Nat.mul_lt_mul_of_pos_right hm' (Nat.two_pow_pos k)
  omega

/-- A 53-bit mantissa given `k` extra zero bits moves back to its own exponent exactly. -/
theorem shiftToTargetExponent_shifted {m : Nat} (e : Int) (k : Nat) (hm : 2 ^ 52 ≤ m)
    (hm' : m < 2 ^ 53) (he : -1074 ≤ e) :
    shiftToTargetExponent Format.binary64 (m * 2 ^ k) (e - k) .exact = (⟨m, false, false⟩, e) := by
  have hlog := log2_mul_pow k hm hm'
  have htarget : Format.binary64.targetExponent (totalExponent (m * 2 ^ k) (e - k)) = e := by
    unfold Format.targetExponent totalExponent
    rw [hlog]
    show max ((((52 + k : Nat) : Int) + 1 + (e - k)) - ((1 + 52 : Nat) : Int))
      (3 - 2 ^ (11 - 1) - ((1 + 52 : Nat) : Int)) = e
    omega
  unfold shiftToTargetExponent shiftToExponent
  dsimp only
  rw [htarget]
  have hk : (e - (e - (k : Int))).toNat = k := by omega
  rw [hk]
  show (Nat.repeat ExtendedMantissa.shiftRightOne k ⟨m * 2 ^ k, false, false⟩, e - k + (k : Int)) = _
  rw [repeat_shiftRightOne_exact]
  congr 1
  omega

/-- Rounding a normal value given `k` extra zero bits gives the value itself. -/
theorem roundWithAccuracy_shifted (s : Sign) {m : Nat} (e : Int) (k : Nat) (hm0 : 0 < m)
    (hm : 2 ^ 52 ≤ m) (hm' : m < 2 ^ 53) (he : -1074 ≤ e) :
    roundWithAccuracy Format.binary64 s (m * 2 ^ k) (e - k) .exact = .finite s m e hm0 := by
  have h0 := shiftToTargetExponent_shifted e 0 hm hm' he
  simp only [Nat.pow_zero, Nat.mul_one, Int.natCast_zero, Int.sub_zero] at h0
  unfold roundWithAccuracy
  rw [shiftToTargetExponent_shifted e k hm hm' he]
  dsimp only
  have hr : (ExtendedMantissa.mk m false false).roundedMantissa = m := rfl
  rw [hr, h0]
  dsimp only
  rw [dif_neg (by omega)]

/-- The encoding of a count: positive zero, or the count shifted up to a 53-bit mantissa with
the exponent that undoes the shift. -/
def wholeUnpacked (n : Nat) : UnpackedFloat :=
  if h : n = 0 then .zero .positive
  else .finite .positive (n * 2 ^ (52 - n.log2)) ((n.log2 : Int) - 52)
    (Nat.mul_pos (by omega) (Nat.two_pow_pos _))

theorem wholeUnpacked_of_ne_zero {n : Nat} (h0 : n ≠ 0) :
    wholeUnpacked n = .finite .positive (n * 2 ^ (52 - n.log2)) ((n.log2 : Int) - 52)
      (Nat.mul_pos (by omega) (Nat.two_pow_pos _)) := by
  unfold wholeUnpacked
  rw [dif_neg h0]

/-- Below `2^53`, shifting a nonzero count up to 52 binary places gives a 53-bit mantissa. -/
theorem mantissa_bounds {n : Nat} (h0 : n ≠ 0) (h : n < 2 ^ 53) :
    2 ^ 52 ≤ n * 2 ^ (52 - n.log2) ∧ n * 2 ^ (52 - n.log2) < 2 ^ 53 ∧ n.log2 ≤ 52 := by
  have hl : n.log2 < 53 := (Nat.log2_lt h0).mpr h
  have hlo : 2 ^ n.log2 ≤ n := Nat.log2_self_le h0
  have hhi : n < 2 ^ (n.log2 + 1) := Nat.lt_log2_self
  have e1 : 2 ^ 52 = 2 ^ n.log2 * 2 ^ (52 - n.log2) := by
    rw [← Nat.pow_add]
    congr 1
    omega
  have e2 : 2 ^ 53 = 2 ^ (n.log2 + 1) * 2 ^ (52 - n.log2) := by
    rw [← Nat.pow_add]
    congr 1
    omega
  refine ⟨?_, ?_, by omega⟩
  · rw [e1]
    exact Nat.mul_le_mul_right _ hlo
  · rw [e2]
    exact Nat.mul_lt_mul_of_pos_right hhi (Nat.two_pow_pos _)

/-- Rounding a nonzero count below `2^53` is exact. -/
theorem ofNat_eq_wholeUnpacked {n : Nat} (h0 : n ≠ 0) (h : n < 2 ^ 53) :
    UnpackedFloat.ofNat Format.binary64 n = wholeUnpacked n := by
  obtain ⟨hlo, hhi, hl⟩ := mantissa_bounds h0 h
  have hc : compare (n : Int) 0 = .gt := by
    rw [Int.compare_eq_gt]
    omega
  -- the target exponent is that of the 53-bit mantissa, reached by shifting left
  have ht : Format.binary64.targetExponent (totalExponent (n : Int).toNat 0) = (n.log2 : Int) - 52 := by
    unfold Format.targetExponent totalExponent
    rw [Int.toNat_natCast]
    show max (((n.log2 : Nat) : Int) + 1 + 0 - ((1 + 52 : Nat) : Int))
      (3 - 2 ^ (11 - 1) - ((1 + 52 : Nat) : Int)) = _
    omega
  have hd : decreaseExponent (n : Int).toNat 0 ((n.log2 : Int) - 52) =
      (n * 2 ^ (52 - n.log2), (n.log2 : Int) - 52) := by
    unfold decreaseExponent
    rw [Int.toNat_natCast]
    have hk : (0 - ((n.log2 : Int) - 52)).toNat = 52 - n.log2 := by omega
    rw [hk]
    dsimp only
    rw [Nat.shiftLeft_eq]
    congr 1
    omega
  have hr := roundWithAccuracy_shifted .positive ((n.log2 : Int) - 52) 0
    (Nat.mul_pos (Nat.pos_of_ne_zero h0) (Nat.two_pow_pos _)) hlo hhi (by omega)
  simp only [Nat.pow_zero, Nat.mul_one, Int.natCast_zero, Int.sub_zero] at hr
  unfold UnpackedFloat.ofNat UnpackedFloat.ofInt UnpackedFloat.normalize UnpackedFloat.round
  rw [hc]
  dsimp only
  rw [ht, hd]
  dsimp only
  rw [hr, wholeUnpacked_of_ne_zero h0]

/-- Converting a nonzero count below `2^53` to a word and then to a float is exact. -/
theorem unpack_toUInt64_toFloat {n : Nat} (h0 : n ≠ 0) (h : n < 2 ^ 53) :
    (n.toUInt64.toFloat).toModel.unpack = wholeUnpacked n := by
  obtain ⟨hlo, hhi, hl⟩ := mantissa_bounds h0 h
  have hw : UnpackedFloat.ofUInt64 Format.binary64 n.toUInt64 = UnpackedFloat.ofNat Format.binary64 n := by
    unfold UnpackedFloat.ofUInt64
    congr 1
    simp only [Nat.toUInt64_eq, UInt64.toNat_ofNat']
    omega
  show (Float.Model.pack (UnpackedFloat.ofUInt64 Format.binary64 n.toUInt64)).unpack = _
  rw [unpack_pack_model, hw, ofNat_eq_wholeUnpacked h0 h, wholeUnpacked_of_ne_zero h0]
  exact unpack_pack_normal .positive _ hlo hhi (by omega) (by omega)

theorem unpack_one_powerOfTen :
    (getElem Float.exactlyRepresentablePowersOfTen 0 (by decide)).toModel.unpack =
      .finite .positive (2 ^ 52) (-52) (Nat.two_pow_pos _) := rfl

/-- Multiplying a positive normal value by 1 is exact. -/
theorem mul_one_unpacked {m : Nat} {e : Int} (hm0 : 0 < m) (hm : 2 ^ 52 ≤ m) (hm' : m < 2 ^ 53)
    (he : -1074 ≤ e) :
    UnpackedFloat.mul Format.binary64 (.finite .positive m e hm0)
      (.finite .positive (2 ^ 52) (-52) (Nat.two_pow_pos _)) = .finite .positive m e hm0 := by
  show roundWithAccuracy Format.binary64 .positive (m * 2 ^ 52) (e + -52) .exact = _
  rw [show e + -52 = e - ((52 : Nat) : Int) by omega]
  exact roundWithAccuracy_shifted .positive e 52 hm0 hm hm' he

/-- A count below `2^53` is encoded exactly. -/
theorem unpack_toFloat {n : Nat} (h : n < 2 ^ 53) : n.toFloat.toModel.unpack = wholeUnpacked n := by
  by_cases h0 : n = 0
  · subst h0
    rfl
  obtain ⟨hlo, hhi, hl⟩ := mantissa_bounds h0 h
  -- the literal path: the count as a word, times the power of ten `10^0`
  have hof : n.toFloat = n.toUInt64.toFloat * getElem Float.exactlyRepresentablePowersOfTen 0 (by decide) := by
    show Float.ofScientific n false 0 = _
    unfold Float.ofScientific
    rw [dif_pos ⟨h, by decide⟩]
    rfl
  rw [hof]
  show (Float.Model.mul _ _).unpack = _
  unfold Float.Model.mul
  rw [unpack_pack_model, unpack_toUInt64_toFloat h0 h, unpack_one_powerOfTen,
    wholeUnpacked_of_ne_zero h0, mul_one_unpacked _ hlo hhi (by omega),
    unpack_pack_normal .positive _ hlo hhi (by omega) (by omega)]

theorem unpack_one :
    (1 : Float).toModel.unpack = .finite .positive (2 ^ 52) (-52) (Nat.two_pow_pos _) := rfl

/-! ## Order -/

theorem lt_iff_compare {x y : Float} :
    x < y ↔ x.toModel.unpack.compare y.toModel.unpack = some .lt := by
  show x.lt y = true ↔ _
  simp [Float.lt, LT.lt, Float.Model.lt, UnpackedFloat.lt]

/-- Comparing binary exponents first and then mantissas scaled to a common width compares the
numbers themselves. -/
theorem compare_log2_then {a b : Nat} (ha : a ≠ 0) (hb : b ≠ 0) :
    (compare ((a.log2 : Int) - 52) ((b.log2 : Int) - 52)).then
      (compare (a * 2 ^ (52 - a.log2)) (b * 2 ^ (52 - b.log2))) = compare a b := by
  have hla : 2 ^ a.log2 ≤ a := Nat.log2_self_le ha
  have hlb : 2 ^ b.log2 ≤ b := Nat.log2_self_le hb
  rcases Nat.lt_trichotomy a b with hab | rfl | hab
  · have hl : a.log2 ≤ b.log2 := (Nat.le_log2 hb).mpr (by omega)
    rw [Nat.compare_eq_lt.mpr hab, Ordering.then_eq_lt]
    rcases Nat.lt_or_eq_of_le hl with hl | hl
    · exact .inl (Int.compare_eq_lt.mpr (by omega))
    · refine .inr ⟨Int.compare_eq_eq.mpr (by omega), Nat.compare_eq_lt.mpr ?_⟩
      rw [hl]
      exact Nat.mul_lt_mul_of_pos_right hab (Nat.two_pow_pos _)
  · simp
  · have hl : b.log2 ≤ a.log2 := (Nat.le_log2 ha).mpr (by omega)
    rw [Nat.compare_eq_gt.mpr hab, Ordering.then_eq_gt]
    rcases Nat.lt_or_eq_of_le hl with hl | hl
    · exact .inl (Int.compare_eq_gt.mpr (by omega))
    · refine .inr ⟨Int.compare_eq_eq.mpr (by omega), Nat.compare_eq_gt.mpr ?_⟩
      rw [hl]
      exact Nat.mul_lt_mul_of_pos_right hab (Nat.two_pow_pos _)

/-- Counts compare as their encodings do. -/
theorem compare_wholeUnpacked (a b : Nat) :
    (wholeUnpacked a).compare (wholeUnpacked b) = some (compare a b) := by
  unfold wholeUnpacked
  by_cases ha : a = 0 <;> by_cases hb : b = 0
  · subst ha hb
    rfl
  · subst ha
    rw [dif_pos rfl, dif_neg hb, Nat.compare_eq_lt.mpr (by omega)]
    rfl
  · subst hb
    rw [dif_neg ha, dif_pos rfl, Nat.compare_eq_gt.mpr (by omega)]
    rfl
  · rw [dif_neg ha, dif_neg hb, ← compare_log2_then ha hb]
    rfl

/-- Below `2^53` the order of counts is the order of their floats. -/
theorem toFloat_lt_toFloat {a b : Nat} (ha : a < 2 ^ 53) (hb : b < 2 ^ 53) :
    a.toFloat < b.toFloat ↔ a < b := by
  rw [lt_iff_compare, unpack_toFloat ha, unpack_toFloat hb, compare_wholeUnpacked,
    Option.some_inj, Nat.compare_eq_lt]

/-! ## Truncation to a count -/

/-- Truncating a positive value `m · 2^e` to an integer. -/
theorem roundToInt_positive (m : Nat) (e : Int) :
    roundToInt .positive m e = ((m * 2 ^ e.toNat / 2 ^ (-e).toNat : Nat) : Int) := by
  unfold roundToInt decreaseExponent shiftToExponent
  dsimp only
  show ((Nat.repeat ExtendedMantissa.shiftRightOne _ ⟨m <<< (e - 0).toNat, false, false⟩).mantissa : Int) = _
  rw [mantissa_repeat_shiftRightOne, Nat.shiftLeft_eq]
  have hk : (0 - (e - ((e - 0).toNat : Int))).toNat = (-e).toNat := by omega
  rw [hk, Int.sub_zero]

/-- A count is the value truncated to an integer, negatives at 0, saturated at `2^64 - 1`. -/
theorem toCount_eq_toInt (x : Float) :
    x.toCount = min (x.toModel.unpack.toInt 0 (UInt64.size - 1)).toNat (2 ^ 64 - 1) := by
  show (UInt64.ofNatClamp (x.toModel.unpack.toInt 0 (UInt64.size - 1)).toNat).toNat = _
  generalize (x.toModel.unpack.toInt 0 (UInt64.size - 1)).toNat = k
  have hs : UInt64.size = 2 ^ 64 := rfl
  unfold UInt64.ofNatClamp
  split
  · rename_i h
    rw [hs] at h
    rw [UInt64.toNat_ofNatLT]
    omega
  · rename_i h
    rw [hs] at h
    rw [UInt64.toNat_ofNatLT, hs]
    omega

/-- The count of a positive value `m · 2^e`: truncated, then saturated. -/
theorem toCount_of_unpack_positive {x : Float} {m : Nat} {e : Int} {h : 0 < m}
    (hx : x.toModel.unpack = .finite .positive m e h) :
    x.toCount = min (m * 2 ^ e.toNat / 2 ^ (-e).toNat) (2 ^ 64 - 1) := by
  rw [toCount_eq_toInt, hx]
  show min (roundToInt .positive m e).toNat _ = _
  rw [roundToInt_positive, Int.toNat_natCast]

/-- A count below `2^53` survives the round trip through a float. -/
theorem toCount_toFloat {n : Nat} (h : n < 2 ^ 53) : n.toFloat.toCount = n := by
  by_cases h0 : n = 0
  · subst h0
    rfl
  obtain ⟨hlo, hhi, hl⟩ := mantissa_bounds h0 h
  have hx := unpack_toFloat h
  rw [wholeUnpacked_of_ne_zero h0] at hx
  rw [toCount_of_unpack_positive hx]
  have he : ((n.log2 : Int) - 52).toNat = 0 := by omega
  have he' : (-((n.log2 : Int) - 52)).toNat = 52 - n.log2 := by omega
  rw [he, he', Nat.pow_zero, Nat.mul_one, Nat.mul_div_cancel _ (Nat.two_pow_pos _)]
  omega

/-- A count below `2^53` is a whole float. -/
theorem isWhole_toFloat {n : Nat} (h : n < 2 ^ 53) : n.toFloat.isWhole = true := by
  unfold isWhole
  rw [unpack_toFloat h]
  by_cases h0 : n = 0
  · subst h0
    rfl
  rw [wholeUnpacked_of_ne_zero h0]
  simp

/-! ## Whole values -/

/-- A positive value with a positive exponent is at least `2^53`: above every count that floats
hold exactly. -/
theorem huge_of_exponent_pos {x : Float} {m : Nat} {e : Int} {h : 0 < m}
    (hx : x.toModel.unpack = .finite .positive m e h) (hm : 2 ^ 52 ≤ m) (he : 0 < e) :
    2 ^ 53 ≤ x.toCount ∧ ∀ n < 2 ^ 53, n.toFloat < x := by
  refine ⟨?_, fun n hn => ?_⟩
  · rw [toCount_of_unpack_positive hx]
    have hneg : (-e).toNat = 0 := by omega
    have hpow : 2 ≤ 2 ^ e.toNat := Nat.one_lt_two_pow (by omega)
    rw [hneg, Nat.pow_zero, Nat.div_one]
    have : 2 ^ 53 ≤ m * 2 ^ e.toNat :=
      calc 2 ^ 53 = 2 ^ 52 * 2 := by rfl
        _ ≤ m * 2 ^ e.toNat := Nat.mul_le_mul hm hpow
    omega
  · rw [lt_iff_compare, unpack_toFloat hn, hx]
    by_cases h0 : n = 0
    · subst h0
      rfl
    · obtain ⟨-, -, hl⟩ := mantissa_bounds h0 hn
      rw [wholeUnpacked_of_ne_zero h0]
      show some ((compare _ e).then _) = _
      rw [Int.compare_eq_lt.mpr (by omega)]
      rfl

/-- The encoding of a count whose 53-bit mantissa is `2^k · v`. -/
theorem wholeUnpacked_of_mul_pow {v k m : Nat} (hv : 2 ^ k * v = m) (h : 0 < m)
    (hm : 2 ^ 52 ≤ m) (hm' : m < 2 ^ 53) :
    wholeUnpacked v = .finite .positive m (-(k : Int)) h := by
  have hv0 : v ≠ 0 := by
    rintro rfl
    omega
  have hk : k ≤ 52 := by
    have : 2 ^ k < 2 ^ 53 := Nat.lt_of_le_of_lt (Nat.le_mul_of_pos_right _ (by omega)) (hv ▸ hm')
    have := (Nat.pow_lt_pow_iff_right (by decide)).mp this
    omega
  have hpow : ∀ j, 2 ^ (k + j) = 2 ^ k * 2 ^ j := fun j => Nat.pow_add 2 k j
  -- `v` lies between `2^(52-k)` and `2^(53-k)`, so its binary logarithm is `52 - k`
  have hlo : 2 ^ (52 - k) ≤ v := by
    refine Nat.le_of_mul_le_mul_left ?_ (Nat.two_pow_pos k)
    rw [← hpow, Nat.add_sub_cancel' hk, hv]
    exact hm
  have hhi : v < 2 ^ (53 - k) := by
    refine Nat.lt_of_mul_lt_mul_left (a := 2 ^ k) ?_
    rw [← hpow, Nat.add_sub_cancel' (by omega : k ≤ 53), hv]
    exact hm'
  have hlog : v.log2 = 52 - k := by
    have h1 : 52 - k ≤ v.log2 := (Nat.le_log2 hv0).mpr hlo
    have h2 : v.log2 < 53 - k := (Nat.log2_lt hv0).mpr hhi
    omega
  have hm2 : v * 2 ^ (52 - v.log2) = m := by
    rw [hlog, Nat.sub_sub_self hk, Nat.mul_comm, hv]
  have he2 : (v.log2 : Int) - 52 = -(k : Int) := by
    omega
  rw [wholeUnpacked_of_ne_zero hv0]
  simp only [hm2, he2]

/-- A positive value `m · 2^e` with `e ≤ 0` and `2^-e ∣ m` is the count `m / 2^-e`. -/
theorem eq_toFloat_of_divisible {x : Float} {m : Nat} {e : Int} {h : 0 < m}
    (hx : x.toModel.unpack = .finite .positive m e h) (hm : 2 ^ 52 ≤ m) (hm' : m < 2 ^ 53)
    (he : e ≤ 0) (hdiv : m % 2 ^ (-e).toNat = 0) :
    ∃ v, 0 < v ∧ v < 2 ^ 53 ∧ x = v.toFloat := by
  obtain ⟨v, hv⟩ := Nat.dvd_of_mod_eq_zero hdiv
  have hv0 : 0 < v := by
    rcases Nat.eq_zero_or_pos v with rfl | hv0
    · omega
    · exact hv0
  have hvm : v ≤ m := hv ▸ Nat.le_mul_of_pos_left v (Nat.two_pow_pos _)
  have hu := wholeUnpacked_of_mul_pow hv.symm h hm hm'
  have he' : -(((-e).toNat : Nat) : Int) = e := by
    omega
  rw [he'] at hu
  refine ⟨v, hv0, by omega, eq_of_unpack_normal hx ?_ hm⟩
  rw [unpack_toFloat (by omega), hu]

/-- A whole value that is not below 1 is a count that floats hold exactly, or lies above all
of them. -/
theorem whole_cases {x : Float} (hw : x.isWhole = true) (h1 : ¬ x < 1) :
    (∃ v, 0 < v ∧ v < 2 ^ 53 ∧ x = v.toFloat) ∨
      (2 ^ 53 ≤ x.toCount ∧ ∀ n < 2 ^ 53, n.toFloat < x) := by
  rw [lt_iff_compare, unpack_one] at h1
  unfold isWhole at hw
  have hc := canonical_unpack x
  generalize hu : x.toModel.unpack = u at hw h1 hc
  -- zeros, subnormals and negatives are below 1; NaN and infinities are not whole
  cases hc with
  | notANumber => simp at hw
  | infinity s => simp at hw
  | zero s => exact absurd rfl h1
  | subnormal s m h hm => cases s <;> exact absurd rfl h1
  | normal s m e h hlo hhi =>
    cases s
    case negative => exact absurd rfl h1
    case positive =>
      have he : -52 ≤ e := by
        refine Int.not_lt.mp fun hlt => h1 ?_
        show some ((compare e (-52)).then _) = _
        rw [Int.compare_eq_lt.mpr hlt]
        rfl
      rcases Int.lt_or_le 0 e with hpos | hnp
      · exact .inr (huge_of_exponent_pos hu hlo hpos)
      · have hdiv : m % 2 ^ (-e).toNat = 0 := by
          rcases Int.lt_or_eq_of_le hnp with hneg | rfl
          · simpa [Int.not_le.mpr hneg] using hw
          · exact Nat.mod_one m
        exact .inl (eq_toFloat_of_divisible hu hlo hhi hnp hdiv)

/-- Below `2^53`, the test a 1-based index passes (whole, at least 1, at most `len`) holds of
exactly the floats of the counts `1..len`. -/
theorem isIndex_iff {x : Float} {len : Nat} (hlen : len < 2 ^ 53) :
    (x.isWhole = true ∧ ¬ x < 1 ∧ ¬ len.toFloat < x) ↔ ∃ p < len, x = (p + 1).toFloat := by
  constructor
  · rintro ⟨hw, h1, hle⟩
    rcases whole_cases hw h1 with ⟨v, hv0, hv, rfl⟩ | ⟨-, hbig⟩
    · have hvlen : v ≤ len := Nat.not_lt.mp fun h => hle ((toFloat_lt_toFloat hlen hv).mpr h)
      exact ⟨v - 1, by omega, by rw [Nat.sub_add_cancel hv0]⟩
    · exact absurd (hbig len hlen) hle
  · rintro ⟨p, hp, rfl⟩
    have hp1 : p + 1 < 2 ^ 53 := by omega
    refine ⟨isWhole_toFloat hp1, ?_, ?_⟩
    · show ¬ (p + 1).toFloat < Nat.toFloat 1
      rw [toFloat_lt_toFloat hp1 (by decide)]
      omega
    · rw [toFloat_lt_toFloat hlen hp1]
      omega

end Float
