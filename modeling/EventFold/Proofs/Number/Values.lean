import EventFold.Proofs.Number.Finite
import Mathlib.Algebra.Order.Field.Power
import Mathlib.Algebra.Order.Field.Rat
import Mathlib.Order.Compare
import Mathlib.Tactic.Ring

/-!
# What finite numbers stand for

A finite number stands for a rational number, which `Number.rational?` gives. Numbers are compared by what they
stand for, and `Number.ofMagnitude` makes the number that stands for a magnitude.

The bits of a number hold a magnitude in one form only: with all bits of the mantissa used, unless the exponent
is the least there is. That is why the exponents may be compared before the mantissas.
-/

namespace EventFold.Number

open Float.Model (Format UnpackedFloat)
open Float.Model.UnpackedFloat (Sign unpackSign unpackExponent unpackMantissa)

def Magnitude.rational (a : Magnitude) : ℚ := a.mantissa * 2 ^ a.exponent

/-- The rational number that a number stands for, if it is finite. -/
def rational? (x : Number) : Option ℚ :=
  match x.view with
  | .finite negative a => some (if negative then -a.rational else a.rational)
  | _ => none

/-- A magnitude as the bits of a number hold it. -/
structure Magnitude.IsCanonical (a : Magnitude) : Prop where
  lt : a.mantissa < 2 ^ 53
  minExponent_le : minExponent ≤ a.exponent
  le_maxExponent : a.exponent ≤ maxExponent
  full : 2 ^ 52 ≤ a.mantissa ∨ a.exponent = minExponent

variable {x : Number} {a b : Magnitude} {negative : Bool} {p : ℚ}

section View

/-- What three fields of bits show. -/
def fieldsView (negative : Bool) (scale fraction : Nat) : View :=
  if scale = 2047 then if fraction = 0 then .infinite negative else .nan
  else if scale = 0 then .finite negative ⟨fraction, minExponent⟩
  else .finite negative ⟨2 ^ 52 + fraction, scale - 1075⟩

def bitsView (n : Nat) : View :=
  fieldsView (n / 0x8000000000000000 == 1) (n / 0x10000000000000 % 0x800) (n % 0x10000000000000)

def isNegative : Sign → Bool
  | .negative => true
  | .positive => false

/-- What is shown of a number that has been unpacked. -/
def viewOf : UnpackedFloat → View
  | .notANumber => .nan
  | .infinity s => .infinite (isNegative s)
  | .zero s => .finite (isNegative s) ⟨0, minExponent⟩
  | .finite s m e _ => .finite (isNegative s) ⟨m, e⟩

theorem view_eq_bitsView (x : Number) : x.view = bitsView x.toBits.toNat := by
  simp only [view, bitsView, fieldsView, beq_iff_eq]
  rfl

theorem isNegative_ofBitVec (b : Bits) :
    isNegative (Sign.ofBitVec (unpackSign b)) = (b.toNat / 0x8000000000000000 == 1) := by
  have hall : ∀ s : BitVec 1, isNegative (Sign.ofBitVec s) = (s.toNat == 1) := by decide
  have hlt : b.toNat < 0x10000000000000000 := b.isLt
  have hbit : b.toNat / 0x8000000000000000 % 2 = b.toNat / 0x8000000000000000 := Nat.mod_eq_of_lt (by omega)
  rw [hall, toNat_unpackSign, hbit]

theorem bitsView_eq_fieldsView (b : Bits) : bitsView b.toNat =
    fieldsView (isNegative (Sign.ofBitVec (unpackSign b))) (unpackExponent b).toNat (unpackMantissa b).toNat := by
  rw [isNegative_ofBitVec, toNat_unpackExponent, toNat_unpackMantissa]
  rfl

theorem viewOf_unpack (b : Bits) : viewOf (.unpack .binary64 b) = bitsView b.toNat := by
  rw [bitsView_eq_fieldsView]
  by_cases hones : unpackExponent b = -1#11
  · have houter : UnpackedFloat.unpack .binary64 b = _ := if_pos hones
    have hscale : (unpackExponent b).toNat = 2047 := by rw [hones]; rfl
    by_cases hzero : unpackMantissa b = 0#52
    · rw [houter, if_pos hzero, hscale, hzero]
      rfl
    · rw [houter, if_neg hzero, hscale]
      have hfraction : (unpackMantissa b).toNat ≠ 0 := fun h => hzero (BitVec.eq_of_toNat_eq h)
      exact (if_neg hfraction).symm
  · have houter : UnpackedFloat.unpack .binary64 b = _ := if_neg hones
    have hscale : (unpackExponent b).toNat ≠ 2047 := fun h => hones (BitVec.eq_of_toNat_eq h)
    rw [fieldsView, if_neg hscale]
    by_cases he : unpackExponent b = 0#11
    · have hinner := houter.trans (if_pos he)
      by_cases hzero : unpackMantissa b = 0#52
      · rw [hinner, dif_pos hzero, he, hzero]
        rfl
      · rw [hinner, dif_neg hzero, he]
        rfl
    · have hscale : (unpackExponent b).toNat ≠ 0 := fun h => he (BitVec.eq_of_toNat_eq h)
      have hmantissa : (1#1 ++ unpackMantissa b).toNat = 2 ^ 52 + (unpackMantissa b).toNat := by
        rw [BitVec.toNat_append, ← Nat.shiftLeft_add_eq_or_of_lt (unpackMantissa b).isLt]
        rfl
      rw [houter, if_neg he, if_neg hscale]
      change View.finite _ ⟨(1#1 ++ unpackMantissa b).toNat, _⟩ = _
      rw [hmantissa]
      rfl

/-- The view shows what the number is when it is unpacked. -/
theorem view_eq (x : Number) : x.view = viewOf x.toModel.unpack :=
  (view_eq_bitsView x).trans (viewOf_unpack x.toModel.toBits.toBitVec).symm

theorem isCanonical_of_bitsView {n : Nat} (h : bitsView n = .finite negative a) : a.IsCanonical := by
  have hscale : n / 0x10000000000000 % 0x800 < 2048 := Nat.mod_lt _ (by decide)
  have hfraction : n % 0x10000000000000 < 2 ^ 52 := Nat.mod_lt _ (by decide)
  unfold bitsView at h
  generalize n / 0x10000000000000 % 0x800 = scale at h hscale
  generalize n % 0x10000000000000 = fraction at h hfraction
  unfold fieldsView at h
  split at h
  · split at h <;> cases h
  · split at h
    · cases h
      exact ⟨Nat.lt_trans hfraction (by decide), Int.le_refl _, (by decide : minExponent ≤ maxExponent), .inr rfl⟩
    · cases h
      have hmin : minExponent ≤ (scale : Int) - 1075 := by
        unfold minExponent
        omega
      have hmax : (scale : Int) - 1075 ≤ maxExponent := by
        unfold maxExponent
        omega
      exact ⟨Nat.add_lt_add_left hfraction _, hmin, hmax, .inl (Nat.le_add_right ..)⟩

theorem isCanonical_of_view (h : x.view = .finite negative a) : a.IsCanonical :=
  isCanonical_of_bitsView ((view_eq_bitsView x).symm.trans h)

end View

section Packing

theorem bitsView_fields (negative : Bool) {scale fraction : Nat} (hscale : scale < 2 ^ 11)
    (hfraction : fraction < 2 ^ 52) :
    bitsView (negative.toNat * 0x8000000000000000 + scale * 0x10000000000000 + fraction) =
      fieldsView negative scale fraction := by
  have hbit : (negative.toNat == 1) = negative := by cases negative <;> rfl
  have hsign : (negative.toNat * 0x8000000000000000 + scale * 0x10000000000000 + fraction) /
      0x8000000000000000 = negative.toNat := by omega
  rw [bitsView, hsign, hbit]
  congr 1
  · omega
  · omega

theorem toNat_packComponents (s : Sign) (e : BitVec 11) (m : BitVec 52) :
    (UnpackedFloat.packComponents .binary64 s e m).toNat =
      s.toBitVec.toNat * 0x8000000000000000 + e.toNat * 0x10000000000000 + m.toNat := by
  have he : e.toNat < 2 ^ 11 := e.isLt
  have hm : m.toNat < 2 ^ 52 := m.isLt
  have happend : (UnpackedFloat.packComponents .binary64 s e m).toNat =
      (s.toBitVec.toNat <<< 11 ||| e.toNat) <<< 52 ||| m.toNat :=
    (BitVec.toNat_append ..).trans (congrArg (· <<< 52 ||| m.toNat) (BitVec.toNat_append ..))
  rw [happend, ← Nat.shiftLeft_add_eq_or_of_lt he, ← Nat.shiftLeft_add_eq_or_of_lt hm, Nat.shiftLeft_eq,
    Nat.shiftLeft_eq]
  omega

theorem bitsView_packComponents (s : Sign) (e : BitVec 11) (m : BitVec 52) :
    bitsView (UnpackedFloat.packComponents .binary64 s e m).toNat = fieldsView (isNegative s) e.toNat m.toNat := by
  have hsign : s.toBitVec.toNat = (isNegative s).toNat := by cases s <;> rfl
  rw [toNat_packComponents, hsign, bitsView_fields _ e.isLt m.isLt]

/-- The bits of a canonical magnitude show it. -/
theorem bitsView_pack {s : Sign} {m : Nat} {e : Int} (hm : 0 < m) (h : Magnitude.IsCanonical ⟨m, e⟩) :
    bitsView (UnpackedFloat.pack .binary64 (.finite s m e hm)).toNat = .finite (isNegative s) ⟨m, e⟩ := by
  have hlt : m < 2 ^ 53 := h.lt
  have hmin : -1074 ≤ e := h.minExponent_le
  have hmax : e ≤ 971 := h.le_maxExponent
  have hfull : 2 ^ 52 ≤ m ∨ e = -1074 := h.full
  have hplaces : Format.binary64.mantissaBits = 53 := rfl
  have hbiased : (e + 1023 + (52 : Nat)).toNat = (e + 1075).toNat := by omega
  unfold UnpackedFloat.pack
  simp only [exponentBias_eq, hplaces, hbiased]
  rw [if_neg (by omega)]
  -- A mantissa of 53 bits is written without its first bit, a shorter one as it is.
  by_cases hlog : m.log2 + 1 = 53
  · have hle : 2 ^ 52 ≤ m := (Nat.le_log2 (Nat.ne_of_gt hm)).mp (by omega)
    have hscale : (BitVec.ofNat 11 (e + 1075).toNat).toNat = (e + 1075).toNat := Nat.mod_eq_of_lt (by omega)
    have hfraction : (BitVec.ofNat 52 m).toNat = m - 2 ^ 52 := by
      change m % 2 ^ 52 = _
      omega
    have hmantissa : 2 ^ 52 + (m - 2 ^ 52) = m := by omega
    have hexponent : ((e + 1075).toNat : Int) - 1075 = e := by omega
    rw [if_pos hlog, bitsView_packComponents, hscale, hfraction, fieldsView, if_neg (by omega), if_neg (by omega),
      hmantissa, hexponent]
  · have hshort : m < 2 ^ 52 := by
      by_contra hle
      have hlow := (Nat.le_log2 (Nat.ne_of_gt hm)).mpr (Nat.not_lt.mp hle)
      have hhigh := (Nat.log2_lt (Nat.ne_of_gt hm)).mpr hlt
      omega
    obtain rfl : e = minExponent := hfull.resolve_left (by omega)
    have hfraction : (BitVec.ofNat 52 m).toNat = m := Nat.mod_eq_of_lt hshort
    rw [if_neg hlog, bitsView_packComponents, hfraction]
    rfl

/-- Bits that have been unpacked and packed show the same as before. -/
theorem bitsView_pack_unpack (b : Bits) :
    bitsView (UnpackedFloat.pack .binary64 (.unpack .binary64 b)).toNat = bitsView b.toNat := by
  have hview := viewOf_unpack b
  cases hb : UnpackedFloat.unpack .binary64 b with
  | notANumber =>
    rw [hb] at hview
    rw [← hview]
    decide
  | infinity s =>
    rw [hb] at hview
    rw [← hview]
    cases s <;> decide
  | zero s =>
    rw [hb] at hview
    rw [← hview]
    cases s <;> decide
  | finite s m e hm =>
    rw [hb] at hview
    rw [← hview, bitsView_pack hm (isCanonical_of_bitsView hview.symm)]
    rfl

/-- Nothing is lost when a number is made of bits, as all that are NaN show the same. -/
theorem view_ofBits (w : UInt64) : view (Float.ofBits w) = bitsView w.toNat :=
  (view_eq_bitsView _).trans (bitsView_pack_unpack w.toBitVec)

end Packing

section Magnitudes

theorem Magnitude.rational_pos (h : 0 < a.mantissa) : 0 < a.rational :=
  mul_pos (Nat.cast_pos.mpr h) (zpow_pos (by norm_num) _)

theorem Magnitude.rational_eq_zero (h : a.mantissa = 0) : a.rational = 0 := by
  rw [Magnitude.rational, h, Nat.cast_zero, zero_mul]

/-- With a higher exponent the mantissa becomes a divisor. -/
theorem Magnitude.rational_eq_div (a : Magnitude) :
    a.rational = (a.mantissa * 2 ^ a.exponent.toNat : Nat) / (2 ^ (-a.exponent).toNat : Nat) := by
  have hsplit : (2 : ℚ) ^ a.exponent = 2 ^ a.exponent.toNat / 2 ^ (-a.exponent).toNat := by
    conv_lhs => rw [← Int.toNat_sub_toNat_neg a.exponent, zpow_sub₀ (by norm_num), zpow_natCast, zpow_natCast]
  rw [Magnitude.rational, hsplit]
  push_cast
  rw [mul_div_assoc]

/-- A mantissa may be shifted, with the exponent lowered for it. -/
theorem Magnitude.rational_shift (m k : Nat) (e : Int) :
    Magnitude.rational ⟨m * 2 ^ k, e - k⟩ = Magnitude.rational ⟨m, e⟩ := by
  have htwo : (2 : ℚ) ≠ 0 := by norm_num
  rw [Magnitude.rational, Magnitude.rational, zpow_sub₀ htwo, zpow_natCast, Nat.cast_mul, Nat.cast_pow,
    Nat.cast_ofNat, mul_assoc, mul_div_cancel₀ _ (pow_ne_zero k htwo)]

theorem Magnitude.rational_lower (m : Nat) {e f : Int} (h : f ≤ e) :
    Magnitude.rational ⟨m, e⟩ = Magnitude.rational ⟨m * 2 ^ (e - f).toNat, f⟩ := by
  have hexponent : e - ((e - f).toNat : Int) = f := by omega
  rw [← Magnitude.rational_shift m (e - f).toNat e, hexponent]

/-- Of canonical magnitudes the one with the higher exponent is larger. -/
theorem Magnitude.IsCanonical.rational_lt (ha : a.IsCanonical) (hb : b.IsCanonical)
    (h : a.exponent < b.exponent) : a.rational < b.rational := by
  have hfull : 2 ^ 52 ≤ b.mantissa := by
    refine hb.full.resolve_right fun hmin => ?_
    have hle := ha.minExponent_le
    omega
  calc a.rational < (2 ^ 53 : ℕ) * 2 ^ a.exponent := by
        exact mul_lt_mul_of_pos_right (Nat.cast_lt.mpr ha.lt) (zpow_pos (by norm_num) _)
    _ = (2 ^ 52 : ℕ) * 2 ^ (a.exponent + 1) := by
        rw [zpow_add_one₀ (by norm_num)]
        push_cast
        ring
    _ ≤ (2 ^ 52 : ℕ) * 2 ^ b.exponent :=
        mul_le_mul_of_nonneg_left (zpow_le_zpow_right₀ (by norm_num) h) (Nat.cast_nonneg _)
    _ ≤ b.rational := mul_le_mul_of_nonneg_right (Nat.cast_le.mpr hfull) (zpow_nonneg (by norm_num) _)

/-- Canonical magnitudes are compared by their exponents first. -/
theorem Magnitude.IsCanonical.compare_rational (ha : a.IsCanonical) (hb : b.IsCanonical) :
    (compare a.exponent b.exponent).then (compare a.mantissa b.mantissa) = compare a.rational b.rational := by
  rcases lt_trichotomy a.exponent b.exponent with hlt | heq | hgt
  · rw [compare_lt_iff_lt.mpr hlt, compare_lt_iff_lt.mpr (ha.rational_lt hb hlt)]
    rfl
  · have hmono : StrictMono fun m : ℕ => (m : ℚ) * 2 ^ b.exponent := fun m n hlt =>
      mul_lt_mul_of_pos_right (Nat.cast_lt.mpr hlt) (zpow_pos (by norm_num) _)
    rw [compare_eq_iff_eq.mpr heq, Magnitude.rational, Magnitude.rational, heq, ← cmp_eq_compare,
      ← cmp_eq_compare]
    exact (hmono.cmp_map_eq ..).symm
  · rw [compare_gt_iff_gt.mpr hgt, compare_gt_iff_gt.mpr (hb.rational_lt ha hgt)]
    rfl

theorem rational?_of_view (h : x.view = .finite negative a) :
    x.rational? = some (if negative then -a.rational else a.rational) := by
  rw [rational?, h]

theorem exists_view_of_rational? (h : x.rational? = some p) :
    ∃ negative a, x.view = .finite negative a ∧ p = if negative then -a.rational else a.rational := by
  unfold rational? at h
  cases hview : x.view with
  | nan =>
    rw [hview] at h
    cases h
  | infinite negative =>
    rw [hview] at h
    cases h
  | finite negative a =>
    rw [hview] at h
    exact ⟨negative, a, rfl, (Option.some.inj h).symm⟩

theorem rational?_ofBits {n : Nat} (scale fraction : Nat) (hscale : scale < 2 ^ 11) (hfraction : fraction < 2 ^ 52)
    (hn : n = negative.toNat * 0x8000000000000000 + scale * 0x10000000000000 + fraction)
    (h : fieldsView negative scale fraction = .finite negative a) :
    rational? (Float.ofBits (.ofNat n)) = some (if negative then -a.rational else a.rational) := by
  have hbit := Bool.toNat_le negative
  have hlt : n < 2 ^ 64 := by omega
  apply rational?_of_view
  rw [view_ofBits, UInt64.toNat_ofNat_of_lt' hlt, hn, bitsView_fields negative hscale hfraction, h]

theorem mul_two_pow_lt {m k : Nat} (h : m.log2 + k ≤ 52) : m * 2 ^ k < 2 ^ 53 := by
  calc m * 2 ^ k < 2 ^ (m.log2 + 1) * 2 ^ k := Nat.mul_lt_mul_of_pos_right Nat.lt_log2_self (Nat.two_pow_pos k)
    _ = 2 ^ (m.log2 + 1 + k) := (Nat.pow_add ..).symm
    _ ≤ 2 ^ 53 := Nat.pow_le_pow_right (by decide) (by omega)

theorem le_mul_two_pow {m k : Nat} (hm : m ≠ 0) (h : m.log2 + k = 52) : 2 ^ 52 ≤ m * 2 ^ k := by
  rw [← h, Nat.pow_add]
  exact Nat.mul_le_mul_right _ (Nat.log2_self_le hm)

/-- A number is made of its magnitude without rounding. -/
theorem rational?_ofMagnitude (negative : Bool) (hlt : a.mantissa < 2 ^ 53) (hmin : minExponent ≤ a.exponent)
    (hmax : a.exponent ≤ maxExponent) :
    (ofMagnitude negative a).rational? = some (if negative then -a.rational else a.rational) := by
  obtain ⟨m, e⟩ := a
  unfold minExponent maxExponent at *
  dsimp only at hlt hmin hmax
  have hpow : ∀ k, Nat.pow 2 k = 2 ^ k := fun _ => rfl
  have hsign : (if negative then 2 ^ 63 else 0) = negative.toNat * 0x8000000000000000 := by
    cases negative <;> rfl
  unfold ofMagnitude
  simp only [hpow, hsign]
  by_cases hzero : m = 0
  · have hsame : Magnitude.rational ⟨m, e⟩ = Magnitude.rational ⟨0, minExponent⟩ := by
      rw [Magnitude.rational_eq_zero hzero, Magnitude.rational_eq_zero rfl]
    rw [if_pos (beq_iff_eq.mpr hzero), hsame]
    exact rational?_ofBits 0 0 (by decide) (by decide) (by omega) rfl
  · have hlog : m.log2 < 53 := (Nat.log2_lt hzero).mpr hlt
    rw [if_neg (by rwa [beq_iff_eq])]
    generalize hshift : min (52 - m.log2) (e + 1074).toNat = shift
    rw [← Magnitude.rational_shift m shift e]
    -- The mantissa is shifted up to 53 bits, or as far as the least exponent allows.
    have hlt : m * 2 ^ shift < 2 ^ 53 := mul_two_pow_lt (by omega)
    have hleast : m * 2 ^ shift < 2 ^ 52 → e - shift = -1074 := by
      intro hshort
      by_contra hne
      exact absurd hshort (Nat.not_lt.mpr (le_mul_two_pow hzero (by omega)))
    generalize m * 2 ^ shift = n at hlt hleast ⊢
    by_cases hshort : n < 2 ^ 52
    · rw [if_pos hshort, hleast hshort]
      exact rational?_ofBits 0 n (by decide) hshort (by omega) rfl
    · have hmantissa : 2 ^ 52 + (n - 2 ^ 52) = n := by omega
      have hexponent : ((e - shift + 1075).toNat : Int) - 1075 = e - shift := by omega
      rw [if_neg hshort]
      refine rational?_ofBits (e - shift + 1075).toNat (n - 2 ^ 52) (by omega) (by omega) (by omega) ?_
      rw [fieldsView, if_neg (by omega), if_neg (by omega), hmantissa, hexponent]

end Magnitudes

section Comparison

variable {y : Number} {u : UnpackedFloat} {q : ℚ}

/-- What a number that stands for `p` is when it is unpacked. -/
inductive Unpacks (p : ℚ) : UnpackedFloat → Prop where
  | zero (s : Sign) : p = 0 → Unpacks p (.zero s)
  | positive {m : Nat} {e : Int} (hm : 0 < m) : Magnitude.IsCanonical ⟨m, e⟩ →
    p = Magnitude.rational ⟨m, e⟩ → Unpacks p (.finite .positive m e hm)
  | negative {m : Nat} {e : Int} (hm : 0 < m) : Magnitude.IsCanonical ⟨m, e⟩ →
    p = -Magnitude.rational ⟨m, e⟩ → Unpacks p (.finite .negative m e hm)

theorem unpacks_of_rational? (h : x.rational? = some p) : Unpacks p x.toModel.unpack := by
  have hview := view_eq x
  unfold rational? at h
  cases hu : x.toModel.unpack with
  | notANumber =>
    rw [hview, hu] at h
    cases h
  | infinity s =>
    rw [hview, hu] at h
    cases h
  | zero s =>
    rw [hview, hu] at h
    refine .zero s ((Option.some.inj h).symm.trans ?_)
    rw [Magnitude.rational_eq_zero rfl, neg_zero, ite_self]
  | finite s m e hm =>
    rw [hu] at hview
    have hcanonical := isCanonical_of_view hview
    rw [hview] at h
    cases s with
    | negative => exact .negative hm hcanonical (Option.some.inj h).symm
    | positive => exact .positive hm hcanonical (Option.some.inj h).symm

theorem compare_neg_neg (p q : ℚ) : compare (-p) (-q) = compare q p := by
  have hanti : StrictAnti (Neg.neg : ℚ → ℚ) := fun _ _ => neg_lt_neg
  rw [← cmp_eq_compare, ← cmp_eq_compare]
  exact hanti.cmp_map_eq p q

theorem Unpacks.compare_eq {v : UnpackedFloat} (hu : Unpacks p u) (hv : Unpacks q v) :
    u.compare v = some (compare p q) := by
  cases hu with
  | zero s hp =>
    subst hp
    cases hv with
    | zero t hq =>
      subst hq
      rfl
    | positive hn hb hq =>
      rw [compare_lt_iff_lt.mpr (hq ▸ Magnitude.rational_pos hn)]
      rfl
    | negative hn hb hq =>
      rw [compare_gt_iff_gt.mpr (hq ▸ neg_lt_zero.mpr (Magnitude.rational_pos hn))]
      rfl
  | positive hm ha hp =>
    have hpos : 0 < p := hp ▸ Magnitude.rational_pos hm
    cases hv with
    | zero t hq =>
      subst hq
      rw [compare_gt_iff_gt.mpr hpos]
      rfl
    | positive hn hb hq =>
      rw [hp, hq, ← ha.compare_rational hb]
      rfl
    | negative hn hb hq =>
      have hneg : q < 0 := hq ▸ neg_lt_zero.mpr (Magnitude.rational_pos hn)
      rw [compare_gt_iff_gt.mpr (hneg.trans hpos)]
      rfl
  | negative hm ha hp =>
    have hneg : p < 0 := hp ▸ neg_lt_zero.mpr (Magnitude.rational_pos hm)
    cases hv with
    | zero t hq =>
      subst hq
      rw [compare_lt_iff_lt.mpr hneg]
      rfl
    | positive hn hb hq =>
      have hpos : 0 < q := hq ▸ Magnitude.rational_pos hn
      rw [compare_lt_iff_lt.mpr (hneg.trans hpos)]
      rfl
    | negative hn hb hq =>
      rw [hp, hq, compare_neg_neg, Std.OrientedOrd.eq_swap, ← ha.compare_rational hb]
      rfl

section

variable (hx : x.rational? = some p) (hy : y.rational? = some q)
include hx hy

theorem compare_of_rational? : x.toModel.unpack.compare y.toModel.unpack = some (compare p q) :=
  (unpacks_of_rational? hx).compare_eq (unpacks_of_rational? hy)

theorem beq_iff_of_rational? : (x == y) = true ↔ p = q := by
  change (x.toModel.unpack.compare y.toModel.unpack == some .eq) = true ↔ _
  rw [compare_of_rational? hx hy, beq_iff_eq, Option.some.injEq, compare_eq_iff_eq]

theorem lt_iff_of_rational? : x < y ↔ p < q := by
  change decide ((x.toModel.unpack.compare y.toModel.unpack == some .lt) = true) = true ↔ _
  rw [decide_eq_true_iff, compare_of_rational? hx hy, beq_iff_eq, Option.some.injEq, compare_lt_iff_lt]

theorem le_iff_of_rational? : x ≤ y ↔ p ≤ q := by
  change decide ((x.toModel.unpack.compare y.toModel.unpack).any (·.isLE) = true) = true ↔ _
  rw [decide_eq_true_iff, compare_of_rational? hx hy, Option.any_some, Ordering.isLE_iff_ne_gt, ← ne_eq,
    compare_le_iff_le]

end

end Comparison

end EventFold.Number
