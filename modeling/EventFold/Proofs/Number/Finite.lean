import EventFold.Proofs.Number.Comparison
import Mathlib.Algebra.Group.Nat.Defs

/-!
# Finite results

A result is rounded to 53 bits of mantissa, and it is infinite if its exponent is then above 971. So a
calculation is finite if the exponent before rounding is bounded: rounding raises it by one at most.

Only small numbers come up where decimals are read: words of 64 bits, divided by powers of ten.
-/

namespace EventFold.Number

open Float.Model (Format UnpackedFloat totalExponent)
open Float.Model.UnpackedFloat (Sign Accuracy ExtendedMantissa unpackExponent unpackMantissa roundWithAccuracy
  shiftToExponent shiftToTargetExponent)

def maxExponent : Int := 971

def minExponent : Int := -1074

/-- A zero, or a mantissa of 53 bits with an exponent that is not above `top`. -/
def Within (top : Int) : UnpackedFloat → Prop
  | .zero _ => True
  | .finite _ m e _ => m < 2 ^ 53 ∧ e ≤ top
  | _ => False

variable {b : Bits} {u : UnpackedFloat} {x y : Number} {top : Int} {m n k : Nat} {e f : Int} {s t : Sign}

theorem Within.isFinite (h : Within top u) : u.isFinite = true := by
  cases u with
  | zero s => rfl
  | finite s m e hm => rfl
  | infinity s => exact h.elim
  | notANumber => exact h.elim

section Bits

theorem within_unpack (hfinite : (unpackExponent b).toNat < 2047)
    (htop : ((unpackExponent b).toNat : Int) ≤ top + 1075) (hmin : minExponent ≤ top) :
    Within top (.unpack .binary64 b) := by
  have hmantissa : (unpackMantissa b).toNat < 2 ^ 52 := (unpackMantissa b).isLt
  have hstands := standsFor_unpack b
  generalize UnpackedFloat.unpack .binary64 b = u at hstands ⊢
  cases hstands with
  | infinity hs he hm => omega
  | notANumber he hm =>
    rw [he] at hfinite
    exact absurd hfinite (by decide)
  | zero hs he hm => trivial
  | subnormal hpos hs he hexp hm =>
    subst hexp
    exact ⟨by omega, hmin⟩
  | normal hpos hs he hm =>
    have hplace : Nat.pow 2 52 = 2 ^ 52 := rfl
    exact ⟨by omega, by omega⟩

theorem exponent_lt_of_isFinite (h : (UnpackedFloat.unpack .binary64 b).isFinite = true) :
    (unpackExponent b).toNat < 2047 := by
  have hlt : (unpackExponent b).toNat < 2048 := (unpackExponent b).isLt
  suffices hne : (unpackExponent b).toNat ≠ 2047 by omega
  intro hones
  have heq : unpackExponent b = -1#11 := BitVec.eq_of_toNat_eq hones
  have houter : UnpackedFloat.unpack .binary64 b = _ := if_pos heq
  rw [houter] at h
  split at h
  · cases h
  · cases h

theorem within_of_isFinite (h : x.isFinite = true) : Within maxExponent x.toModel.unpack := by
  have hlt := exponent_lt_of_isFinite h
  refine within_unpack hlt ?_ (by decide)
  unfold maxExponent
  omega

theorem exponentBias_eq : ((Format.binary64.exponentBias : Nat) : Int) = 1023 := rfl

/-- The exponent field of a finite number. One with a shorter mantissa is below the normal numbers. -/
theorem unpackExponent_pack (s : Sign) (hm : 0 < m) (hmax : e ≤ maxExponent) :
    (unpackExponent (UnpackedFloat.pack .binary64 (.finite s m e hm))).toNat =
      if m.log2 + 1 = 53 then (e + 1075).toNat else 0 := by
  unfold maxExponent at hmax
  have hplaces : Format.binary64.mantissaBits = 53 := rfl
  have hbiased : (e + 1023 + (52 : Nat)).toNat = (e + 1075).toNat := by omega
  unfold UnpackedFloat.pack
  simp only [exponentBias_eq, hplaces, hbiased]
  rw [if_neg (by omega)]
  split
  · rw [Float.Model.UnpackedFloat.unpackExponent_packComponents]
    exact Nat.mod_eq_of_lt (by omega)
  · rw [Float.Model.UnpackedFloat.unpackExponent_packComponents]
    rfl

theorem unpack_pack_of_lt (s : Sign) (hm : 0 < m) (h : maxExponent < e) :
    (Float.Model.pack (.finite s m e hm)).unpack = .infinity s := by
  have hpacked : UnpackedFloat.pack .binary64 (.finite s m e hm) =
      UnpackedFloat.packedInfinity .binary64 s := by
    unfold UnpackedFloat.pack maxExponent at *
    simp only [exponentBias_eq]
    exact if_pos (by omega)
  change UnpackedFloat.unpack .binary64 (UnpackedFloat.pack .binary64 (.finite s m e hm)) = _
  rw [hpacked]
  cases s <;> rfl

/-- Packing a result whose exponent is not too high makes it no larger. -/
theorem Within.pack (h : Within top u) (hmin : minExponent ≤ top) (hmax : top ≤ maxExponent) :
    Within top (Float.Model.pack u).unpack := by
  cases u with
  | zero s => cases s <;> trivial
  | finite s m e hm =>
    have he := h.2
    have hexponent := unpackExponent_pack s hm (Int.le_trans he hmax)
    change Within top (UnpackedFloat.unpack .binary64 (UnpackedFloat.pack .binary64 (.finite s m e hm)))
    generalize UnpackedFloat.pack .binary64 (.finite s m e hm) = b at hexponent ⊢
    unfold maxExponent at hmax
    have hmin' : -1074 ≤ top := hmin
    refine within_unpack ?_ ?_ hmin
    · split at hexponent <;> omega
    · split at hexponent <;> omega
  | infinity s => exact h.elim
  | notANumber => exact h.elim

theorem isFinite_of_pack (h : Within top u) (hmin : minExponent ≤ top) (hmax : top ≤ maxExponent)
    (hx : x.toModel = .pack u) : x.isFinite = true := by
  change x.toModel.unpack.isFinite = true
  rw [hx]
  exact (h.pack hmin hmax).isFinite

end Bits

section Rounding

theorem mantissa_shiftRight (em : ExtendedMantissa) (k : Nat) : (em >>> k).mantissa = em.mantissa / 2 ^ k := by
  induction k with
  | zero => exact (Nat.div_one _).symm
  | succ k ih =>
    change (em >>> k).mantissa / 2 = _
    rw [ih, Nat.div_div_eq_div_mul, Nat.pow_succ]

theorem mantissa_ofMantissaAndAccuracy (m : Nat) (acc : Accuracy) :
    (ExtendedMantissa.ofMantissaAndAccuracy m acc).mantissa = m := by
  cases acc with
  | exact => rfl
  | inexact o => cases o <;> rfl

theorem roundedMantissa_bounds (em : ExtendedMantissa) :
    em.mantissa ≤ em.roundedMantissa ∧ em.roundedMantissa ≤ em.mantissa + 1 := by
  obtain ⟨m, round, sticky⟩ := em
  cases round with
  | false => cases sticky <;> exact ⟨Nat.le_refl m, Nat.le_succ m⟩
  | true =>
    cases sticky with
    | false =>
      exact ⟨Nat.le_add_right m _, Nat.add_le_add_left (Nat.le_of_lt_succ (Nat.mod_lt m (by decide))) m⟩
    | true => exact ⟨Nat.le_succ m, Nat.le_refl _⟩

/-- How far a mantissa is shifted for its exponent to come to the target. -/
def places (m : Nat) (e : Int) : Nat := (max (totalExponent m e - 53) minExponent - e).toNat

theorem mantissa_shiftToTargetExponent (m : Nat) (e : Int) (acc : Accuracy) :
    (shiftToTargetExponent .binary64 m e acc).1.mantissa = m / 2 ^ places m e :=
  (mantissa_shiftRight _ _).trans (congrArg (· / _) (mantissa_ofMantissaAndAccuracy m acc))

/-- A mantissa that has come to its target has at most 53 bits. -/
theorem div_places_lt (m : Nat) (e : Int) : m / 2 ^ places m e < 2 ^ 53 := by
  rw [Nat.div_lt_iff_lt_mul (Nat.two_pow_pos _), ← Nat.pow_add]
  have hplaces : m.log2 + 1 ≤ 53 + places m e := by
    unfold places totalExponent minExponent
    omega
  exact Nat.lt_of_lt_of_le Nat.lt_log2_self (Nat.pow_le_pow_right (by decide) hplaces)

/-- It keeps 53 bits if it had them and the exponent is not too low. -/
theorem le_div_places (hm : 2 ^ 52 ≤ m) (he : minExponent ≤ e) : 2 ^ 52 ≤ m / 2 ^ places m e := by
  have hpos : m ≠ 0 := by omega
  have hlog : 52 ≤ m.log2 := (Nat.le_log2 hpos).mpr hm
  have hplaces : 52 + places m e = m.log2 := by
    unfold places totalExponent minExponent at *
    omega
  rw [Nat.le_div_iff_mul_le (Nat.two_pow_pos _), ← Nat.pow_add, hplaces]
  exact Nat.log2_self_le hpos

theorem totalExponent_le_of_lt (h : m < 2 ^ k) (hk : 0 < k) (e : Int) : totalExponent m e ≤ k + e := by
  unfold totalExponent
  have hlog : m.log2 < k := by
    by_cases hm : m = 0
    · subst hm
      simpa using hk
    · exact (Nat.log2_lt hm).mpr h
  omega

/-- The mantissa after the first shift of two, and what it is rounded to. -/
def roundedOnce (m : Nat) (e : Int) (acc : Accuracy) : Nat :=
  (shiftToTargetExponent .binary64 m e acc).1.roundedMantissa

theorem roundedOnce_bounds (m : Nat) (e : Int) (acc : Accuracy) :
    m / 2 ^ places m e ≤ roundedOnce m e acc ∧ roundedOnce m e acc ≤ m / 2 ^ places m e + 1 := by
  rw [← mantissa_shiftToTargetExponent m e acc]
  exact roundedMantissa_bounds _

/-- A result is shifted and rounded, and then shifted again if the rounding has carried. -/
theorem roundWithAccuracy_eq (s : Sign) (m : Nat) (e : Int) (acc : Accuracy) : ∃ n f,
    n = roundedOnce m e acc / 2 ^ places (roundedOnce m e acc) (e + places m e) ∧
    f = e + places m e + places (roundedOnce m e acc) (e + places m e) ∧
    roundWithAccuracy .binary64 s m e acc =
      if h : n = 0 then .zero s else .finite s n f (Nat.pos_of_ne_zero h) :=
  ⟨_, _, mantissa_shiftToTargetExponent _ _ .exact, rfl, rfl⟩

/-- Rounding carries into the exponent once at most. -/
theorem within_round (top : Int) (he : e ≤ top) (htotal : totalExponent m e ≤ top + 53)
    (hmin : minExponent ≤ top) (s : Sign) (acc : Accuracy) :
    Within (top + 1) (roundWithAccuracy .binary64 s m e acc) := by
  obtain ⟨n, f, hn, hf, heq⟩ := roundWithAccuracy_eq s m e acc
  have hfirst : e + places m e ≤ top := by
    unfold places
    omega
  have hcarry : roundedOnce m e acc < 2 ^ 54 := by
    have hlt := div_places_lt m e
    have hle := (roundedOnce_bounds m e acc).2
    omega
  have htotal' := totalExponent_le_of_lt hcarry (by decide) (e + places m e)
  -- A rounded mantissa has 54 bits at most, so the second shift is by one place or none.
  have hlast : f ≤ top + 1 := by
    rw [hf]
    generalize e + places m e = e' at hfirst htotal' ⊢
    unfold places
    omega
  by_cases hzero : n = 0
  · rw [heq, dif_pos hzero]
    trivial
  · rw [heq, dif_neg hzero]
    exact ⟨hn ▸ div_places_lt _ _, hlast⟩

/-- A long mantissa remains a full one, and its exponent does not get lower. -/
theorem exists_round_eq (hm : 2 ^ 52 ≤ m) (he : minExponent ≤ e) (s : Sign) (acc : Accuracy) :
    ∃ n f hn, roundWithAccuracy .binary64 s m e acc = .finite s n f hn ∧
      2 ^ 52 ≤ n ∧ n < 2 ^ 53 ∧ e ≤ f := by
  obtain ⟨n, f, hn, hf, heq⟩ := roundWithAccuracy_eq s m e acc
  have hrounded : 2 ^ 52 ≤ roundedOnce m e acc :=
    Nat.le_trans (le_div_places hm he) (roundedOnce_bounds m e acc).1
  have hfull : 2 ^ 52 ≤ n := hn ▸ le_div_places hrounded (by omega)
  rw [dif_neg (by omega)] at heq
  exact ⟨n, f, _, heq, hfull, hn ▸ div_places_lt _ _, by omega⟩

end Rounding

section Operations

variable {v : UnpackedFloat}

theorem Within.neg (h : Within top u) : Within top u.neg := by
  cases u with
  | zero s => trivial
  | finite s m e hm => exact h
  | infinity s => exact h
  | notANumber => exact h

theorem isFinite_neg (h : x.isFinite = true) : (-x).isFinite = true :=
  isFinite_of_pack (within_of_isFinite h).neg (by decide) (by decide) rfl

/-- Whether a magnitude is at least one half. -/
def isHalfOrMore : UnpackedFloat → Bool
  | .infinity _ => true
  | .finite _ m e _ => 0 ≤ totalExponent m e
  | _ => false

theorem quotient_lt (m k : Nat) (hn : 0 < n) : (m <<< k) / n < 2 ^ (m.log2 + 1 + k - n.log2 + 1) := by
  rw [Nat.div_lt_iff_lt_mul hn, Nat.shiftLeft_eq]
  calc m * 2 ^ k < 2 ^ (m.log2 + 1) * 2 ^ k :=
        Nat.mul_lt_mul_of_pos_right Nat.lt_log2_self (Nat.two_pow_pos k)
    _ = 2 ^ (m.log2 + 1 + k) := (Nat.pow_add ..).symm
    _ ≤ 2 ^ (m.log2 + 1 + k - n.log2 + 1 + n.log2) := Nat.pow_le_pow_right (by decide) (by omega)
    _ = 2 ^ (m.log2 + 1 + k - n.log2 + 1) * 2 ^ n.log2 := Nat.pow_add ..
    _ ≤ _ := Nat.mul_le_mul_left _ (Nat.log2_self_le (Nat.ne_of_gt hn))

/-- The exponent of a quotient before rounding. -/
def quotientExponent (m : Nat) (e : Int) (n : Nat) (f : Int) : Int :=
  min (e - f) (max (totalExponent m e - totalExponent n f - 53) minExponent)

theorem div_finite (s t : Sign) (hm : 0 < m) (hn : 0 < n) : ∃ acc,
    UnpackedFloat.div .binary64 (.finite s m e hm) (.finite t n f hn) =
      roundWithAccuracy .binary64 (s / t) ((m <<< (e - f - quotientExponent m e n f).toNat) / n)
        (quotientExponent m e n f) acc :=
  ⟨_, rfl⟩

/-- A quotient by one half or more is not much larger than what was divided. -/
theorem Within.div (hu : Within top u) (hv : isHalfOrMore v = true) (hmin : minExponent ≤ top) :
    Within (top + 3) (UnpackedFloat.div .binary64 u v) := by
  cases v with
  | zero s => cases hv
  | notANumber => cases hv
  | infinity t =>
    cases u with
    | infinity s => exact hu.elim
    | notANumber => exact hu.elim
    | zero s => trivial
    | finite s m e hm => trivial
  | finite t n f hn =>
    have hlarge : 0 ≤ totalExponent n f := of_decide_eq_true hv
    cases u with
    | infinity s => exact hu.elim
    | notANumber => exact hu.elim
    | zero s => trivial
    | finite s m e hm =>
      obtain ⟨hm', he⟩ := hu
      obtain ⟨acc, hround⟩ := div_finite (e := e) (f := f) s t hm hn
      have hsmall := totalExponent_le_of_lt hm' (by decide) e
      have htarget : quotientExponent m e n f = min (e - f) _ := rfl
      -- As the divisor is at least one half, the quotient has at most two places more than what is divided.
      have hquotient := totalExponent_le_of_lt (quotient_lt m (e - f - quotientExponent m e n f).toNat hn)
        (Nat.succ_pos _) (quotientExponent m e n f)
      rw [hround]
      generalize quotientExponent m e n f = q at htarget hquotient ⊢
      unfold totalExponent at hlarge hsmall htarget
      have hmin' : minExponent ≤ top + 2 := by omega
      unfold minExponent at hmin htarget
      have hwithin := within_round (top + 2) (by omega) (Int.le_trans hquotient (by omega)) hmin' (s / t) acc
      rwa [Int.add_assoc] at hwithin

end Operations

section Words

theorem within_mul (top : Int) (he : e + f ≤ top) (hm : m * n < 2 ^ k) (hk : 0 < k)
    (htotal : k + (e + f) ≤ top + 53) (hmin : minExponent ≤ top) (s t : Sign) (hpos : 0 < m) (hpos' : 0 < n) :
    Within (top + 1) (UnpackedFloat.mul .binary64 (.finite s m e hpos) (.finite t n f hpos')) :=
  within_round top he (Int.le_trans (totalExponent_le_of_lt hm hk _) htotal) hmin (s * t) .exact

/-- A word of 64 bits takes up at most eleven bits more than a mantissa has. -/
theorem within_word (h : n < 2 ^ 64) : Within 12 (UnpackedFloat.ofNat .binary64 n) := by
  cases n with
  | zero => trivial
  | succ n =>
    have hround : ∀ k : Nat, Within 12 (roundWithAccuracy .binary64 .positive ((n + 1) <<< k) (0 - k) .exact) := by
      intro k
      have hlt : (n + 1) <<< k < 2 ^ (64 + k) := by
        rw [Nat.shiftLeft_eq, Nat.pow_add]
        exact Nat.mul_lt_mul_of_pos_right h (Nat.two_pow_pos k)
      exact within_round 11 (by omega) (Int.le_trans (totalExponent_le_of_lt hlt (by omega) _) (by omega))
        (by decide) _ _
    exact hround _

def one : UnpackedFloat := .finite .positive (2 ^ 52) (-52) (by decide)

theorem first_powerOfTen (h : 0 < Float.exactlyRepresentablePowersOfTen.size) :
    Float.exactlyRepresentablePowersOfTen[0] = Float.ofBits 0x3FF0000000000000 := rfl

theorem unpack_one : (Float.ofBits 0x3FF0000000000000).toModel.unpack = one := rfl

theorem within_mul_one (h : Within 12 u) : Within 13 (UnpackedFloat.mul .binary64 u one) := by
  cases u with
  | infinity s => exact h.elim
  | notANumber => exact h.elim
  | zero s => trivial
  | finite s m e hm =>
    obtain ⟨hm', he⟩ := h
    have hlt : m * 2 ^ 52 < 2 ^ 105 := by omega
    exact within_mul 12 (by omega) hlt (by decide) (by omega) (by decide) s _ hm _

theorem ofNat_of_lt (h : n < 2 ^ 53) : (Float.ofNat n).toModel =
    .pack (UnpackedFloat.mul .binary64 (Float.Model.pack (.ofUInt64 .binary64 n.toUInt64)).unpack one) := by
  change (Float.ofScientific n false 0).toModel = _
  unfold Float.ofScientific
  rw [dif_pos ⟨h, by decide⟩]
  dsimp only
  rw [if_neg Bool.false_ne_true]
  change Float.Model.pack (UnpackedFloat.mul .binary64 _ _) = _
  rw [first_powerOfTen, unpack_one]
  rfl

/-- What is beyond the exact cases is rounded from the product with the power. -/
theorem toModel_ofScientific (h : ¬ (n < 2 ^ 53 ∧ k ≤ 22)) : (Float.ofScientific n false k).toModel =
    .pack (UnpackedFloat.ofScientific .binary64 n k) := by
  unfold Float.ofScientific
  rw [dif_neg h]
  rfl

theorem ofScientific_eq (hn : 0 < n) (hk : k ≤ 2048) : ∃ hpos hpos',
    UnpackedFloat.ofScientific .binary64 n k = UnpackedFloat.mul .binary64
      (.finite .positive (n <<< 53) (-53) hpos) (.finite .positive (10 ^ k) 0 hpos') := by
  have hbits : (2 : Int) ^ Format.binary64.exponentBits = 2048 := rfl
  unfold UnpackedFloat.ofScientific
  rw [dif_neg (Nat.ne_of_gt hn), if_neg (by omega), if_neg (by omega), if_pos (Int.natCast_nonneg k)]
  exact ⟨_, _, rfl⟩

/-- A word is rounded, but never to a number much larger. -/
theorem within_ofNat (h : n < 2 ^ 64) : Within 13 (Float.ofNat n).toModel.unpack := by
  by_cases hsmall : n < 2 ^ 53
  · have hword : Within 12 (UnpackedFloat.ofUInt64 .binary64 n.toUInt64) := within_word n.toUInt64.toNat_lt
    have hproduct := within_mul_one (hword.pack (by decide) (by decide))
    rw [ofNat_of_lt hsmall]
    exact hproduct.pack (by decide) (by decide)
  · obtain ⟨hpos, hpos', heq⟩ := ofScientific_eq (n := n) (k := 0) (by omega) (by omega)
    have hlt : n <<< 53 * 10 ^ 0 < 2 ^ 117 := by
      rw [Nat.shiftLeft_eq]
      omega
    change Within 13 (Float.ofScientific n false 0).toModel.unpack
    rw [toModel_ofScientific fun h => hsmall h.1, heq]
    exact (within_mul 12 (by omega) hlt (by decide) (by omega) (by decide) _ _ _ _).pack
      (by decide) (by decide)

theorem isFinite_ofInt {n : Int} (h : n.natAbs < 2 ^ 64) : (Float.ofInt n).isFinite = true := by
  cases n with
  | ofNat n => exact (within_ofNat h).isFinite
  | negSucc n => exact isFinite_neg (within_ofNat h).isFinite

end Words

section PowersOfTen

theorem isHalfOrMore_pack (s : Sign) (hpos : 0 < m) (hm : 2 ^ 52 ≤ m) (hm' : m < 2 ^ 53) (he : -53 ≤ e) :
    isHalfOrMore (Float.Model.pack (.finite s m e hpos)).unpack = true := by
  by_cases hmax : e ≤ maxExponent
  · have hlog : m.log2 + 1 = 53 := by
      have hle := (Nat.le_log2 (Nat.ne_of_gt hpos)).mpr hm
      have hlt := (Nat.log2_lt (Nat.ne_of_gt hpos)).mpr hm'
      omega
    have hexponent := unpackExponent_pack s hpos hmax
    rw [if_pos hlog] at hexponent
    change isHalfOrMore (UnpackedFloat.unpack .binary64 (UnpackedFloat.pack .binary64 (.finite s m e hpos))) = _
    generalize UnpackedFloat.pack .binary64 (.finite s m e hpos) = b at hexponent ⊢
    have hstands := standsFor_unpack b
    generalize UnpackedFloat.unpack .binary64 b = u at hstands ⊢
    unfold maxExponent at hmax
    cases hstands with
    | infinity hs hones hzero => rfl
    | notANumber hones hm =>
      have hnat : (unpackExponent b).toNat = 2047 := congrArg BitVec.toNat hones
      omega
    | zero hs hzero hm => omega
    | subnormal hn hs hzero hexp hm => omega
    | @normal t n f hn hs hfield hmantissa =>
      have hplace : Nat.pow 2 52 = 2 ^ 52 := rfl
      have hfull : 52 ≤ n.log2 := (Nat.le_log2 (Nat.ne_of_gt hn)).mpr (by omega)
      refine decide_eq_true ?_
      unfold totalExponent
      omega
  · rw [unpack_pack_of_lt s hpos (Int.not_le.mp hmax)]
    rfl

/-- A power of ten, as decimals are scaled by. The small ones are exact and come from a list. -/
theorem isHalfOrMore_ofScientific (k : Nat) (hk : k ≤ 2048) :
    isHalfOrMore (Float.ofScientific 1 false k).toModel.unpack = true := by
  by_cases hsmall : k ≤ 22
  · have hall : ∀ k ≤ 22, isHalfOrMore (Float.ofScientific 1 false k).toModel.unpack = true := by
      decide +kernel
    exact hall k hsmall
  · obtain ⟨hpos, hpos', heq⟩ := ofScientific_eq (n := 1) (by decide) hk
    -- The product is taken of 53 shifted bits, so no rounding makes its mantissa shorter.
    have hlong : 2 ^ 52 ≤ 1 <<< 53 * 10 ^ k :=
      Nat.le_trans (by decide) (Nat.le_mul_of_pos_right _ (Nat.pow_pos (by decide)))
    obtain ⟨n, f, hn, hround, hn', hlt, hf⟩ :=
      exists_round_eq (e := -53 + 0) hlong (by decide) (Sign.positive * .positive) .exact
    rw [toModel_ofScientific fun h => hsmall h.2, heq]
    change isHalfOrMore (Float.Model.pack (roundWithAccuracy _ _ _ _ _)).unpack = true
    rw [hround]
    exact isHalfOrMore_pack _ hn hn' hlt hf

end PowersOfTen

end EventFold.Number
