import Mathlib
import CallAdapter.Binary.Word

/-!
# Widening loses nothing

Every word of the 32-bit format denotes something that the 64-bit format can denote as well, and
`Single.toDouble` finds the word for it. What two words denote is compared by `Datum.Same`: numbers
with the same sign and magnitude, infinities with the same sign, or no number with the same sign.

A positive number of the 32-bit format is `m · 2 ^ q` with `m < 2 ^ 24`. Rounding it to the 64-bit
format only shifts the significand up until its leading bit is in place (`roundMagnitude_scale`), so
nothing is rounded off.
-/

namespace CallAdapter

/-! ### Ratios by powers of two -/

namespace Ratio

theorem log2_mul_two_pow {m : Nat} (hm : m ≠ 0) (k : Nat) : (m * 2 ^ k).log2 = m.log2 + k := by
  have hpos : 0 < 2 ^ k := by positivity
  rw [Nat.log2_eq_iff (Nat.mul_ne_zero hm hpos.ne')]
  constructor
  · rw [pow_add]
    exact Nat.mul_le_mul_right _ (Nat.log2_self_le hm)
  · have hlt := Nat.mul_lt_mul_of_pos_right (Nat.lt_log2_self (n := m)) hpos
    rwa [← pow_add, add_right_comm] at hlt

/-- A natural times a power of two has its leading bit where the two together put it. -/
theorem floorLog2_scale {m : Nat} (hm : m ≠ 0) (q : Int) :
    ((ofNat m).scale 2 q).floorLog2 = m.log2 + q := by
  have hlog : (((m * 2 ^ q.toNat).log2 : Nat) : Int) - ((1 * 2 ^ (-q).toNat).log2 : Nat)
      = m.log2 + q := by
    rw [log2_mul_two_pow hm, one_mul, Nat.log2_two_pow]
    omega
  have hle : 1 * 2 ^ (-q).toNat * 2 ^ (m.log2 + q).toNat
      ≤ m * 2 ^ q.toNat * 2 ^ (-(m.log2 + q)).toNat := by
    have hexp : (-q).toNat + ((m.log2 : Int) + q).toNat
        = m.log2 + (q.toNat + (-((m.log2 : Int) + q)).toNat) := by omega
    rw [one_mul, mul_assoc, ← pow_add, ← pow_add, hexp, pow_add]
    exact Nat.mul_le_mul_right _ (Nat.log2_self_le hm)
  simp only [floorLog2, scale, ofNat, Nat.pow_eq, hlog, neg_neg]
  rw [if_pos hle]

/-- A ratio that is a natural is the nearest one. -/
theorem nearest_of_mul {r : Ratio} {n : Nat} (hden : 0 < r.den) (h : r.num = n * r.den) :
    r.nearest = n := by
  simp [nearest, h, hden]

/-- Scaling down by as much as there is to spare gives a natural. -/
theorem nearest_scale_scale (m k : Nat) (q : Int) :
    (((ofNat m).scale 2 q).scale 2 (-(q - k))).nearest = m * 2 ^ k := by
  apply nearest_of_mul
  · simp only [scale, ofNat, Nat.pow_eq]
    positivity
  · have hexp : q.toNat + (-(q - k)).toNat = k + ((-q).toNat + (- -(q - k)).toNat) := by omega
    simp only [scale, ofNat, Nat.pow_eq]
    rw [one_mul, mul_assoc, mul_assoc, ← pow_add, ← pow_add, ← pow_add, hexp]

end Ratio

/-! ### Words of the 64-bit format -/

namespace Binary

/-- The two denote the same: the same number, or the same infinity, or no number. -/
inductive Datum.Same : Datum → Datum → Prop
  | finite {negative : Bool} {m m' : Nat} {q q' : Int} : (m : ℚ) * 2 ^ q = m' * 2 ^ q' →
      Same (.finite negative m q) (.finite negative m' q')
  | infinite {negative : Bool} : Same (.infinite negative) (.infinite negative)
  | nan {negative : Bool} : Same (.nan negative) (.nan negative)

/-- The fields of a finite word of the 32-bit format are bounded. -/
theorem bounds_of_unpack_single {w : Nat} {negative : Bool} {m : Nat} {q : Int}
    (h : single.unpack w = .finite negative m q) : m < 2 ^ 24 ∧ -149 ≤ q ∧ q ≤ 104 := by
  have hleading : single.leadingBit = 2 ^ 23 := rfl
  have hleast : single.leastExponent = -149 := rfl
  have htop : single.topField = 255 := rfl
  unfold Format.unpack at h
  simp only [beq_iff_eq, hleading, hleast, htop] at h
  split at h
  · split at h <;> cases h
  · split at h
    · cases h
      omega
    · cases h
      omega

/-- The words of the normal numbers of the 64-bit format, by significand and exponent. -/
theorem unpack_double (negative : Bool) {e m : Nat} (hm : 2 ^ 52 ≤ m) (hm' : m < 2 ^ 53)
    (he : e ≤ 2045) :
    double.unpack (double.withSign negative (e * 2 ^ 52 + m)) = .finite negative m (e - 1074) := by
  have hleading : double.leadingBit = 2 ^ 52 := rfl
  have hsign : double.signWord = 2 ^ 63 := rfl
  have hleast : double.leastExponent = -1074 := rfl
  have htop : double.topField = 2047 := rfl
  obtain ⟨w, hw⟩ : ∃ w, w = double.withSign negative (e * 2 ^ 52 + m) := ⟨_, rfl⟩
  -- The three fields of the word do not overlap, so that each can be read off by division.
  have hnegative : (w / 2 ^ 63 % 2 == 1) = negative := by
    cases negative <;> simp [hw, Format.withSign, hsign] <;> omega
  have hfield : w / 2 ^ 52 % 2048 = e + 1 := by
    cases negative <;> simp [hw, Format.withSign, hsign] <;> omega
  have hfraction : w % 2 ^ 52 = m - 2 ^ 52 := by
    cases negative <;> simp [hw, Format.withSign, hsign] <;> omega
  have hsignificand : 2 ^ 52 + (m - 2 ^ 52) = m := by omega
  have hexponent : -1074 + ((e + 1 - 1 : Nat) : Int) = e - 1074 := by omega
  rw [← hw]
  unfold Format.unpack
  simp only [hsign, hleading, htop, hleast, hnegative, hfield, hfraction, beq_iff_eq]
  rw [if_neg (by omega), if_neg (by omega), hsignificand, hexponent]

/-- A significand that is shifted into place has its leading bit there. -/
theorem shifted_bounds {m : Nat} (hm : m ≠ 0) (hlog : m.log2 ≤ 52) :
    2 ^ 52 ≤ m * 2 ^ (52 - m.log2) ∧ m * 2 ^ (52 - m.log2) < 2 ^ 53 := by
  have hpos : m * 2 ^ (52 - m.log2) ≠ 0 := Nat.mul_ne_zero hm (by positivity)
  have hplace : (m * 2 ^ (52 - m.log2)).log2 = 52 := by
    rw [Ratio.log2_mul_two_pow hm]
    omega
  exact (Nat.log2_eq_iff hpos).mp hplace

/-- A number with at most 53 significant bits is rounded to a word of the 64-bit format by shifting
its significand into place. -/
theorem roundMagnitude_scale {m : Nat} (hm : m ≠ 0) (hm' : m < 2 ^ 53) {q : Int}
    (hq : -1022 ≤ m.log2 + q) (hq' : m.log2 + q ≤ 1023) :
    double.roundMagnitude ((Ratio.ofNat m).scale 2 q)
      = (m.log2 + q + 1022).toNat * 2 ^ 52 + m * 2 ^ (52 - m.log2) := by
  have hleading : double.leadingBit = 2 ^ 52 := rfl
  have hleast : double.leastExponent = -1074 := rfl
  have hinfinity : double.infinityWord = 2047 * 2 ^ 52 := rfl
  have hbits : double.fractionBits = 52 := rfl
  have hlog : m.log2 ≤ 52 := Nat.lt_succ_iff.mp ((Nat.log2_lt hm).mpr hm')
  have hnonzero : ((Ratio.ofNat m).scale 2 q).num ≠ 0 := by
    simp [Ratio.scale, Ratio.ofNat, hm]
  -- The exponent of the last bit leaves room for as many bits as there are to spare.
  have hexponent : max (-1074) ((m.log2 : Int) + q - (52 : Nat)) = q - (52 - m.log2 : Nat) := by
    omega
  have hsignificand : m * 2 ^ (52 - m.log2) < 2 ^ 53 := (shifted_bounds hm hlog).2
  unfold Format.roundMagnitude
  simp only [beq_iff_eq, if_neg hnonzero, hleast, hbits, hleading, hinfinity,
    Ratio.floorLog2_scale hm, hexponent, Ratio.nearest_scale_scale]
  rw [min_eq_left (by omega)]
  congr 2
  omega

/-- Rounding a number of the 32-bit format to the 64-bit format is exact. -/
theorem same_round {m : Nat} (hm : m < 2 ^ 24) {q : Int} (hq : -149 ≤ q) (hq' : q ≤ 104)
    (negative : Bool) :
    Datum.Same (.finite negative m q)
      (double.unpack (double.round negative ((Ratio.ofNat m).scale 2 q))) := by
  by_cases hzero : m = 0
  · subst hzero
    have hround : double.round negative ((Ratio.ofNat 0).scale 2 q) = double.withSign negative 0 := by
      simp [Format.round, Format.roundMagnitude, Ratio.scale, Ratio.ofNat]
    have hunpack : double.unpack (double.withSign negative 0) = .finite negative 0 (-1074) := by
      cases negative <;> rfl
    rw [hround, hunpack]
    exact .finite (by simp)
  · -- The significand has 24 bits at most, and 53 are there for it: shifting it loses nothing.
    have hlog : m.log2 < 24 := (Nat.log2_lt hzero).mpr hm
    have hbounds := shifted_bounds hzero (by omega)
    have hround : double.round negative ((Ratio.ofNat m).scale 2 q) = double.withSign negative
        ((m.log2 + q + 1022).toNat * 2 ^ 52 + m * 2 ^ (52 - m.log2)) := by
      rw [Format.round, roundMagnitude_scale hzero (by omega) (by omega) (by omega)]
    rw [hround, unpack_double negative hbounds.1 hbounds.2 (by omega)]
    apply Datum.Same.finite
    have hexponent : (((m.log2 : Int) + q + 1022).toNat : Int) - 1074
        = q - (52 - m.log2 : Nat) := by omega
    rw [hexponent, zpow_sub₀ (by norm_num), zpow_natCast]
    push_cast
    field_simp

theorem withSign_lt (negative : Bool) {w : Nat} (h : w < 2 ^ 63) :
    double.withSign negative w < 2 ^ 64 := by
  have hsign : double.signWord = 2 ^ 63 := rfl
  cases negative <;> simp [Format.withSign, hsign] <;> omega

theorem roundMagnitude_le (f : Format) (r : Ratio) : f.roundMagnitude r ≤ f.infinityWord := by
  unfold Format.roundMagnitude
  split
  · exact Nat.zero_le _
  · exact min_le_right _ _

/-- The word in the 64-bit format needs no more than 64 bits. -/
theorem word_toDouble (x : Single) : x.toDouble.word = single.narrow double x.word := by
  apply UInt64.toNat_ofNat_of_lt'
  have hinfinity : double.infinityWord < 2 ^ 63 := by decide
  have hquiet : double.quietWord < 2 ^ 63 := by decide
  rw [Format.narrow]
  cases single.unpack x.word with
  | finite negative m q =>
    exact withSign_lt negative ((roundMagnitude_le double _).trans_lt hinfinity)
  | infinite negative => exact withSign_lt negative hinfinity
  | nan negative => exact withSign_lt negative hquiet

/-- **Widening is exact.** A word of the 32-bit format and its word in the 64-bit format denote the
same. -/
theorem same_toDouble (x : Single) :
    (single.unpack x.word).Same (double.unpack x.toDouble.word) := by
  rw [word_toDouble, Format.narrow]
  cases hunpack : single.unpack x.word with
  | finite negative m q =>
    obtain ⟨hm, hq, hq'⟩ := bounds_of_unpack_single hunpack
    exact same_round hm hq hq' negative
  | infinite negative =>
    cases negative <;> exact .infinite
  | nan negative =>
    cases negative <;> exact .nan

end Binary

end CallAdapter
