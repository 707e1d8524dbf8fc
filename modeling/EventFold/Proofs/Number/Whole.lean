import EventFold.Proofs.Number.Values

/-!
# Whole numbers

Whether a number is an index below a count can be asked of the number itself, with three comparisons and a cut to
a word. `Number.indexBelow?` does so. The answer is the one that what the number stands for gives, for counts up
to `2 ^ 53`: NaN and the infinities are no index, nor is a fraction, and both zeros are the index 0.
-/

namespace EventFold.Number

open Float.Model (Format UnpackedFloat totalExponent)
open Float.Model.UnpackedFloat (Sign ExtendedMantissa roundToInt roundWithAccuracy)

/-- The index below a count that a number is, if it is one: it has no fraction, which is the remainder by one, is
not below zero and is below the count. -/
def indexBelow? (count : Nat) (x : Number) : Option Nat :=
  if x.remainder 1 != 0 || x < 0 || x ≥ count.toUInt64.toFloat then none else some x.toUInt64.toNat

variable {x y : Number} {a : Magnitude} {negative : Bool} {p : ℚ} {n count : Nat}

section WholeMagnitudes

/-- A magnitude is a natural number if the mantissa is, shifted either way. -/
theorem Magnitude.rational_eq_natCast_iff :
    a.rational = n ↔ a.mantissa * 2 ^ a.exponent.toNat = n * 2 ^ (-a.exponent).toNat := by
  have hpos : ((2 ^ (-a.exponent).toNat : Nat) : ℚ) ≠ 0 := Nat.cast_ne_zero.mpr (Nat.two_pow_pos _).ne'
  rw [Magnitude.rational_eq_div, div_eq_iff hpos, ← Nat.cast_mul, Nat.cast_inj]

/-- Of the magnitudes with a sign only zero is a natural number. -/
theorem signed_eq_natCast_iff : (if negative then -a.rational else a.rational) = n ↔
    (negative = true → a.mantissa = 0) ∧ a.mantissa * 2 ^ a.exponent.toNat = n * 2 ^ (-a.exponent).toNat := by
  rw [← Magnitude.rational_eq_natCast_iff]
  cases negative with
  | false => exact ⟨fun h => ⟨nofun, h⟩, fun h => h.2⟩
  | true =>
    by_cases hzero : a.mantissa = 0
    · rw [Magnitude.rational_eq_zero hzero, neg_zero, ite_self]
      exact ⟨fun h => ⟨fun _ => hzero, h⟩, fun h => h.2⟩
    · have hpos := Magnitude.rational_pos (Nat.pos_of_ne_zero hzero)
      have hneg : -a.rational < n := (neg_lt_zero.mpr hpos).trans_le (Nat.cast_nonneg n)
      exact iff_of_false hneg.ne fun h => hzero (h.1 rfl)

theorem natural?_eq_some_iff : x.natural? = some n ↔ x.rational? = some (n : ℚ) := by
  unfold natural? rational?
  cases x.view with
  | nan => exact iff_of_false nofun nofun
  | infinite negative => exact iff_of_false nofun nofun
  | finite negative a =>
    obtain ⟨m, e⟩ := a
    have hpow : ∀ k, Nat.pow 2 k = 2 ^ k := fun _ => rfl
    simp only [Option.some.injEq, signed_eq_natCast_iff, beq_iff_eq, hpow]
    by_cases hzero : m = 0
    · simp [hzero, eq_comm]
    · rw [if_neg hzero]
      cases negative with
      | true => simp [hzero]
      | false =>
        rw [if_neg nofun, and_iff_right nofun]
        by_cases he : 0 ≤ e
        · have hlow : (-e).toNat = 0 := by omega
          rw [if_pos he, Option.some.injEq, hlow, Nat.pow_zero, Nat.mul_one]
        · have hhigh : e.toNat = 0 := by omega
          rw [if_neg he, hhigh, Nat.pow_zero, Nat.mul_one]
          split
          · rename_i hdvd
            rw [Option.some.injEq, Nat.div_eq_iff_eq_mul_left (Nat.two_pow_pos _) (Nat.dvd_of_mod_eq_zero hdvd)]
          · rename_i hnot
            refine iff_of_false nofun fun heq => hnot ?_
            rw [heq, Nat.mul_mod_left]

theorem roundToInt_positive (m : Nat) (e : Int) :
    roundToInt .positive m e = (m * 2 ^ e.toNat / 2 ^ (-e).toNat : Nat) := by
  have hplaces : (0 - (e - ((e - 0).toNat : Int))).toNat = (-e).toNat := by omega
  have hcut : roundToInt .positive m e =
      ((.ofMantissaAndAccuracy (m <<< (e - 0).toNat) .exact : ExtendedMantissa) >>>
        (0 - (e - ((e - 0).toNat : Int))).toNat).mantissa := rfl
  rw [hcut, mantissa_shiftRight, mantissa_ofMantissaAndAccuracy, Nat.shiftLeft_eq, hplaces, Int.sub_zero]

/-- A cut to a word leaves a natural number as it is. -/
theorem toNat_toUInt64 (h : x.rational? = some (n : ℚ)) (hn : n < 2 ^ 64) : x.toUInt64.toNat = n := by
  have hcut : ∀ z : Int, z = n → (UInt64.ofNatClamp z.toNat).toNat = n := by
    rintro z rfl
    rw [Int.toNat_natCast, UInt64.ofNatClamp_eq_ofNat n hn, UInt64.toNat_ofNat_of_lt' hn]
  change (UInt64.ofNatClamp (x.toModel.unpack.toInt 0 (UInt64.size - 1)).toNat).toNat = n
  apply hcut
  generalize hu : x.toModel.unpack = u
  have hunpacks := hu ▸ unpacks_of_rational? h
  cases hunpacks with
  | zero s hzero => exact (Nat.cast_eq_zero.mp hzero).symm ▸ rfl
  | @positive m e hm ha heq =>
    have hshifted := Magnitude.rational_eq_natCast_iff.mp heq.symm
    dsimp only at hshifted
    change roundToInt .positive m e = n
    rw [roundToInt_positive, hshifted, Nat.mul_div_cancel _ (Nat.two_pow_pos _)]
  | @negative m e hm ha heq =>
    have hpos : 0 < Magnitude.rational ⟨m, e⟩ := Magnitude.rational_pos hm
    have hneg : (n : ℚ) < 0 := heq ▸ neg_lt_zero.mpr hpos
    exact absurd (Nat.cast_nonneg n) hneg.not_ge

end WholeMagnitudes

section Remainders

variable {q : ℚ}

theorem rational?_zero : rational? 0 = some 0 := by
  have hview : view 0 = .finite false ⟨0, minExponent⟩ := by decide +kernel
  rw [rational?_of_view hview, if_neg nofun, Magnitude.rational_eq_zero rfl]

theorem rational?_one : rational? 1 = some 1 := by
  have hview : view 1 = .finite false ⟨2 ^ 52, -52⟩ := by decide +kernel
  have hone : Magnitude.rational ⟨2 ^ 52, -52⟩ = (1 : ℕ) := Magnitude.rational_eq_natCast_iff.mpr (by decide)
  rw [rational?_of_view hview, if_neg nofun, hone, Nat.cast_one]

def signed (negative : Bool) (n : Nat) : ℤ := if negative then -n else n

theorem Magnitude.signed_rational (negative : Bool) (m : Nat) (e : Int) :
    (if negative then -Magnitude.rational ⟨m, e⟩ else Magnitude.rational ⟨m, e⟩) = signed negative m * 2 ^ e := by
  cases negative <;> simp [signed, Magnitude.rational]

theorem signed_eq_zero_iff (s : Bool) (n : Nat) : signed s n = 0 ↔ n = 0 := by
  cases s <;> simp [signed]

theorem signed_dvd_signed_iff (s t : Bool) (m n : Nat) : signed s n ∣ signed t m ↔ m % n = 0 := by
  rw [← Nat.dvd_iff_mod_eq_zero, ← Int.natCast_dvd_natCast]
  cases s <;> cases t <;> simp [signed]

/-- A remainder is taken of the mantissas, brought to the lower of the exponents. It is not rounded. -/
theorem rational?_remainder {s t : Bool} {m n : Nat} {e f : Int} (hx : x.view = .finite s ⟨m, e⟩)
    (hy : y.view = .finite t ⟨n, f⟩) (hne : n ≠ 0) : (x.remainder y).rational? = some
      ((signed s (m * 2 ^ (e - min e f).toNat % (n * 2 ^ (f - min e f).toNat)) : ℤ) * 2 ^ min e f : ℚ) := by
  obtain ⟨hm, hemin, hemax, -⟩ := isCanonical_of_view hx
  obtain ⟨hn, hfmin, -, -⟩ := isCanonical_of_view hy
  have hremainder : x.remainder y = ofMagnitude s
      ⟨m * 2 ^ (e - min e f).toNat % (n * 2 ^ (f - min e f).toNat), min e f⟩ := by
    unfold remainder
    rw [hx, hy]
    exact if_neg (by rwa [beq_iff_eq])
  have hsmall : m * 2 ^ (e - min e f).toNat % (n * 2 ^ (f - min e f).toNat) < 2 ^ 53 := by
    rcases Int.le_total e f with hle | hle
    · rw [min_eq_left hle, Int.sub_self, Int.toNat_zero, Nat.pow_zero, Nat.mul_one]
      exact (Nat.mod_le ..).trans_lt hm
    · rw [min_eq_right hle, Int.sub_self, Int.toNat_zero, Nat.pow_zero, Nat.mul_one]
      exact (Nat.mod_lt _ (Nat.pos_of_ne_zero hne)).trans hn
  have hmax : min e f ≤ maxExponent := (min_le_left e f).trans hemax
  rw [hremainder, rational?_ofMagnitude s hsmall (le_min hemin hfmin) hmax, Magnitude.signed_rational]

/-- There is no remainder if the dividend is a multiple of the divisor. -/
theorem remainder_beq_zero_iff (hx : x.rational? = some p) (hy : y.rational? = some q) (hq : q ≠ 0) :
    (x.remainder y == 0) = true ↔ ∃ k : ℤ, p = k * q := by
  obtain ⟨s, ⟨m, e⟩, hxview, rfl⟩ := exists_view_of_rational? hx
  obtain ⟨t, ⟨n, f⟩, hyview, rfl⟩ := exists_view_of_rational? hy
  have hne : n ≠ 0 := by
    rintro rfl
    exact hq (by rw [Magnitude.rational_eq_zero rfl, neg_zero, ite_self])
  rw [beq_iff_of_rational? (rational?_remainder hxview hyview hne) rational?_zero,
    Magnitude.rational_lower m (min_le_left e f), Magnitude.rational_lower n (min_le_right e f),
    Magnitude.signed_rational, Magnitude.signed_rational]
  generalize m * 2 ^ (e - min e f).toNat = dividend
  generalize n * 2 ^ (f - min e f).toNat = divisor
  have hscale : (2 : ℚ) ^ min e f ≠ 0 := zpow_ne_zero _ (by norm_num)
  calc (signed s (dividend % divisor) : ℚ) * 2 ^ min e f = 0 ↔ dividend % divisor = 0 := by
        rw [mul_eq_zero, or_iff_left hscale, Int.cast_eq_zero, signed_eq_zero_iff]
    _ ↔ signed t divisor ∣ signed s dividend := (signed_dvd_signed_iff ..).symm
    _ ↔ ∃ k : ℤ, (signed s dividend : ℚ) * 2 ^ min e f = k * (signed t divisor * 2 ^ min e f) := by
        refine exists_congr fun k => ?_
        rw [← mul_assoc, mul_left_inj' hscale, mul_comm (k : ℚ), ← Int.cast_mul, Int.cast_inj]

end Remainders

theorem roundWithAccuracy_exact {m : Nat} {e : Int} (s : Sign) (hm : 0 < m) (h : Magnitude.IsCanonical ⟨m, e⟩) :
    roundWithAccuracy .binary64 s m e .exact = .finite s m e hm := by
  have hlt : m < 2 ^ 53 := h.lt
  have hmin : minExponent ≤ e := h.minExponent_le
  have hlog : m.log2 < 53 := (Nat.log2_lt hm.ne').mpr hlt
  have hplaces : places m e = 0 := by
    unfold places totalExponent
    omega
  have honce : roundedOnce m e .exact = m := by
    have hshift : roundedOnce m e .exact =
        ((.ofMantissaAndAccuracy m .exact : ExtendedMantissa) >>> places m e).roundedMantissa := rfl
    rw [hshift, hplaces]
    rfl
  obtain ⟨n, f, hn, hf, heq⟩ := roundWithAccuracy_eq s m e .exact
  rw [honce, hplaces, Int.natCast_zero, Int.add_zero, hplaces, Nat.pow_zero, Nat.div_one] at hn
  rw [honce, hplaces, Int.natCast_zero, Int.add_zero, hplaces, Int.natCast_zero, Int.add_zero] at hf
  subst hn hf
  rw [heq, dif_neg hm.ne']

/-- A natural number as a magnitude that has 53 bits of mantissa. -/
def Magnitude.whole (n : Nat) : Magnitude := ⟨n * 2 ^ (52 - n.log2), -(52 - n.log2 : Nat)⟩

theorem Magnitude.rational_whole (n : Nat) : (Magnitude.whole n).rational = n := by
  have hshift := Magnitude.rational_shift n (52 - n.log2) 0
  rw [Int.zero_sub] at hshift
  exact hshift.trans (Magnitude.rational_eq_natCast_iff.mpr rfl)

section Counts

variable (hpos : 0 < n) (hlt : n < 2 ^ 53)
include hpos hlt

theorem Magnitude.isCanonical_whole : (Magnitude.whole n).IsCanonical := by
  have hlog : n.log2 < 53 := (Nat.log2_lt hpos.ne').mpr hlt
  have hmin : minExponent ≤ -(52 - n.log2 : Nat) := by
    unfold minExponent
    omega
  have hmax : -(52 - n.log2 : Nat) ≤ maxExponent := by
    unfold maxExponent
    omega
  exact ⟨mul_two_pow_lt (by omega), hmin, hmax, .inl (le_mul_two_pow hpos.ne' (by omega))⟩

theorem ofUInt64_whole : ∃ hm, UnpackedFloat.ofUInt64 .binary64 n.toUInt64 =
    .finite .positive (Magnitude.whole n).mantissa (Magnitude.whole n).exponent hm := by
  have hlog : n.log2 < 53 := (Nat.log2_lt hpos.ne').mpr hlt
  have hword : n.toUInt64.toNat = n := UInt64.toNat_ofNat_of_lt' (hlt.trans (by decide))
  have hcompare : compare (n : Int) 0 = .gt := compare_gt_iff_gt.mpr (Int.natCast_pos.mpr hpos)
  have hplaces : (0 - Format.binary64.targetExponent (totalExponent n 0)).toNat = 52 - n.log2 := by
    have hbits : (Format.binary64.mantissaBits : Int) = 53 := rfl
    have hleast : Format.binary64.minExponent = -1074 := rfl
    unfold Format.targetExponent totalExponent
    omega
  -- The mantissa is shifted up to 53 bits first, and so the rounding finds nothing to do.
  have hround : UnpackedFloat.round .binary64 .positive n 0 = roundWithAccuracy .binary64 .positive
      (n <<< (0 - Format.binary64.targetExponent (totalExponent n 0)).toNat)
      (0 - (0 - Format.binary64.targetExponent (totalExponent n 0)).toNat) .exact := rfl
  have hm : 0 < n * 2 ^ (52 - n.log2) := Nat.mul_pos hpos (Nat.two_pow_pos _)
  rw [hplaces, Nat.shiftLeft_eq, Int.zero_sub,
    roundWithAccuracy_exact .positive hm (Magnitude.isCanonical_whole hpos hlt)] at hround
  refine ⟨hm, ?_⟩
  change UnpackedFloat.normalize .binary64 (n.toUInt64.toNat : Int) 0 .positive = _
  rw [hword, UnpackedFloat.normalize, hcompare]
  exact hround

theorem view_toFloat : view n.toUInt64.toFloat = .finite false (Magnitude.whole n) := by
  obtain ⟨hm, hmodel⟩ := ofUInt64_whole hpos hlt
  have hview : bitsView (UnpackedFloat.pack .binary64 (.ofUInt64 .binary64 n.toUInt64)).toNat =
      .finite false (Magnitude.whole n) := by
    rw [hmodel]
    exact bitsView_pack hm (Magnitude.isCanonical_whole hpos hlt)
  exact (view_eq_bitsView _).trans hview

end Counts

/-- Counts up to `2 ^ 53` are turned into numbers without rounding. -/
theorem rational?_toFloat (h : n ≤ 2 ^ 53) : rational? n.toUInt64.toFloat = some (n : ℚ) := by
  rcases Nat.eq_zero_or_pos n with rfl | hpos
  · have hview : view (Nat.toUInt64 0).toFloat = .finite false ⟨0, minExponent⟩ := by decide +kernel
    rw [rational?_of_view hview, if_neg nofun, Magnitude.rational_eq_zero rfl, Nat.cast_zero]
  rcases Nat.eq_or_lt_of_le h with rfl | hlt
  · have hview : view (Nat.toUInt64 (2 ^ 53)).toFloat = .finite false ⟨2 ^ 52, 1⟩ := by decide +kernel
    rw [rational?_of_view hview, if_neg nofun, (Magnitude.rational_eq_natCast_iff (n := 2 ^ 53)).mpr (by decide)]
  · rw [rational?_of_view (view_toFloat hpos hlt), if_neg nofun, Magnitude.rational_whole]

section Indices

variable {i : Nat}

/-- What is not finite leaves no number as a remainder. -/
theorem remainder_eq_nan (h : x.rational? = none) (y : Number) : x.remainder y = nan := by
  unfold rational? at h
  unfold remainder
  cases hx : x.view with
  | nan => rfl
  | infinite negative => rfl
  | finite negative a =>
    rw [hx] at h
    cases h

/-- The three comparisons let pass the natural numbers below the count and nothing else. -/
theorem refused_iff (hx : x.rational? = some p) (hcount : count ≤ 2 ^ 53) :
    (x.remainder 1 != 0 || x < 0 || x ≥ count.toUInt64.toFloat) = true ↔ ¬ ∃ j : ℕ, p = j ∧ j < count := by
  have hwhole := remainder_beq_zero_iff hx rational?_one one_ne_zero
  have hneg := lt_iff_of_rational? hx rational?_zero
  have hlarge := le_iff_of_rational? (rational?_toFloat hcount) hx
  simp only [mul_one] at hwhole
  rw [Bool.or_eq_true, Bool.or_eq_true, bne, Bool.not_eq_true', ← Bool.not_eq_true, hwhole, decide_eq_true_iff, hneg,
    decide_eq_true_iff, ge_iff_le, hlarge]
  constructor
  · rintro hrefused ⟨j, rfl, hj⟩
    rcases hrefused with (hfraction | hneg) | hlarge
    · exact hfraction ⟨j, (Int.cast_natCast j).symm⟩
    · exact absurd (Nat.cast_nonneg j) hneg.not_ge
    · exact absurd (Nat.cast_lt.mpr hj) hlarge.not_gt
  · intro hnone
    by_contra hpassed
    simp only [not_or, not_not, not_lt, not_le] at hpassed
    obtain ⟨⟨⟨k, rfl⟩, hnonneg⟩, hlt⟩ := hpassed
    obtain ⟨j, rfl⟩ := Int.eq_ofNat_of_zero_le (Int.cast_nonneg_iff.mp hnonneg)
    rw [Int.cast_natCast] at hlt
    exact hnone ⟨j, Int.cast_natCast j, Nat.cast_lt.mp hlt⟩

theorem indexBelow?_eq_some_iff (hcount : count ≤ 2 ^ 53) :
    x.indexBelow? count = some i ↔ x.rational? = some (i : ℚ) ∧ i < count := by
  cases hx : x.rational? with
  | none =>
    have hnan : (nan != 0) = true := by decide +kernel
    rw [indexBelow?, remainder_eq_nan hx, hnan, Bool.true_or, Bool.true_or, if_pos rfl]
    exact iff_of_false nofun fun h => nomatch h.1
  | some p =>
    unfold indexBelow?
    by_cases hindex : ∃ j : ℕ, p = j ∧ j < count
    · have hpassed := mt (refused_iff hx hcount).mp (not_not_intro hindex)
      obtain ⟨j, rfl, hj⟩ := hindex
      rw [if_neg hpassed, toNat_toUInt64 hx (hj.trans_le (hcount.trans (by decide))), Option.some.injEq,
        Option.some.injEq, Nat.cast_inj]
      exact ⟨fun h => ⟨h, h ▸ hj⟩, fun h => h.1⟩
    · rw [if_pos ((refused_iff hx hcount).mpr hindex)]
      exact iff_of_false nofun fun h => hindex ⟨i, Option.some.inj h.1, h.2⟩

end Indices

end EventFold.Number
