import EventFold.Number.Binary

/-!
# Numbers that compare equal

Numbers are compared as sign, mantissa and exponent, which the bits stand for one to one. The comparison tells
all numbers apart but the two zeros, and takes each but NaN to be equal to itself.

`Number.unsigned` forgets the sign of a zero, which is all that the comparison does not see.
-/

namespace EventFold.Number

open Float.Model (Format UnpackedFloat)
open Float.Model.UnpackedFloat (Sign unpackSign unpackExponent unpackMantissa)

abbrev Bits := BitVec Format.binary64.numBits

/-- How bits stand for a number, field by field. -/
inductive StandsFor (b : Bits) : UnpackedFloat → Prop where
  | infinity {s : Sign} : Sign.ofBitVec (unpackSign b) = s → (unpackExponent b).toNat = 2047 →
    (unpackMantissa b).toNat = 0 → StandsFor b (.infinity s)
  | notANumber : unpackExponent b = -1#11 → unpackMantissa b ≠ 0#52 → StandsFor b .notANumber
  | zero {s : Sign} : Sign.ofBitVec (unpackSign b) = s → (unpackExponent b).toNat = 0 →
    (unpackMantissa b).toNat = 0 → StandsFor b (.zero s)
  | subnormal {s : Sign} {m : Nat} {e : Int} (hm : 0 < m) : Sign.ofBitVec (unpackSign b) = s →
    (unpackExponent b).toNat = 0 → e = -1074 → (unpackMantissa b).toNat = m →
    StandsFor b (.finite s m e hm)
  | normal {s : Sign} {m : Nat} {e : Int} (hm : 0 < m) : Sign.ofBitVec (unpackSign b) = s →
    ((unpackExponent b).toNat : Int) = e + 1075 → (unpackMantissa b).toNat + Nat.pow 2 52 = m →
    StandsFor b (.finite s m e hm)

variable {b c : Bits} {u v : UnpackedFloat} {x y : Number}

theorem standsFor_unpack (b : Bits) : StandsFor b (.unpack .binary64 b) := by
  by_cases hones : unpackExponent b = -1#11
  · have houter : UnpackedFloat.unpack .binary64 b = _ := if_pos hones
    by_cases hzero : unpackMantissa b = 0#52
    · rw [houter, if_pos hzero]
      exact .infinity rfl (by rw [hones]; rfl) (by rw [hzero]; rfl)
    · rw [houter, if_neg hzero]
      exact .notANumber hones hzero
  · have houter : UnpackedFloat.unpack .binary64 b = _ := if_neg hones
    by_cases he : unpackExponent b = 0#11
    · have hinner := houter.trans (if_pos he)
      by_cases hzero : unpackMantissa b = 0#52
      · rw [hinner, dif_pos hzero]
        exact .zero rfl (by rw [he]; rfl) (by rw [hzero]; rfl)
      · rw [hinner, dif_neg hzero]
        exact .subnormal _ rfl (by rw [he]; rfl) (by rw [he]; rfl) rfl
    · rw [houter, if_neg he]
      refine .normal _ rfl ?_ ?_
      · have hbias : ((Format.binary64.exponentBias : Nat) : Int) = 1023 := rfl
        have hplaces : ((Format.binary64.mantissaBitsWithoutImplicit : Nat) : Int) = 52 := rfl
        omega
      · have hlt := (unpackMantissa b).isLt
        rw [BitVec.toNat_append, ← Nat.shiftLeft_add_eq_or_of_lt hlt, Nat.add_comm]
        rfl

theorem toNat_unpackSign (b : Bits) : (unpackSign b).toNat = b.toNat / 0x8000000000000000 % 2 := by
  change ((b.extractLsb 63 63).cast _).toNat = _
  rw [BitVec.toNat_cast, BitVec.extractLsb_toNat, Nat.shiftRight_eq_div_pow]

theorem toNat_unpackExponent (b : Bits) :
    (unpackExponent b).toNat = b.toNat / 0x10000000000000 % 0x800 := by
  change ((b.extractLsb 62 52).cast _).toNat = _
  rw [BitVec.toNat_cast, BitVec.extractLsb_toNat, Nat.shiftRight_eq_div_pow]

theorem toNat_unpackMantissa (b : Bits) : (unpackMantissa b).toNat = b.toNat % 0x10000000000000 := by
  change ((b.extractLsb 51 0).cast _).toNat = _
  rw [BitVec.toNat_cast, BitVec.extractLsb_toNat]
  rfl

/-- The three fields are all the bits there are. -/
theorem bits_ext (hs : Sign.ofBitVec (unpackSign b) = Sign.ofBitVec (unpackSign c))
    (he : (unpackExponent b).toNat = (unpackExponent c).toNat)
    (hm : (unpackMantissa b).toNat = (unpackMantissa c).toNat) : b = c := by
  have hsign : ∀ s : BitVec 1, (Sign.ofBitVec s).toBitVec = s := by decide
  have hs := congrArg (fun s => (Sign.toBitVec s).toNat) hs
  simp only [hsign, toNat_unpackSign] at hs
  rw [toNat_unpackExponent, toNat_unpackExponent] at he
  rw [toNat_unpackMantissa, toNat_unpackMantissa] at hm
  have hb : b.toNat < 0x10000000000000000 := b.isLt
  have hc : c.toNat < 0x10000000000000000 := c.isLt
  apply BitVec.eq_of_toNat_eq
  omega

/-- Bits are known by what they stand for, as there is but one NaN. -/
theorem StandsFor.unique (hb : StandsFor b u) (hc : StandsFor c u) (hvb : Format.binary64.Valid b)
    (hvc : Format.binary64.Valid c) : b = c := by
  cases hb with
  | infinity hs he hm =>
    cases hc with
    | infinity hs' he' hm' =>
      exact bits_ext (hs.trans hs'.symm) (he.trans he'.symm) (hm.trans hm'.symm)
  | notANumber he hm =>
    cases hc with
    | notANumber he' hm' => rw [hvb.eq_packedNaN he hm, hvc.eq_packedNaN he' hm']
  | zero hs he hm =>
    cases hc with
    | zero hs' he' hm' => exact bits_ext (hs.trans hs'.symm) (he.trans he'.symm) (hm.trans hm'.symm)
  | subnormal _ hs he hexp hm =>
    cases hc with
    | subnormal _ hs' he' _ hm' =>
      exact bits_ext (hs.trans hs'.symm) (he.trans he'.symm) (hm.trans hm'.symm)
    | normal _ hs' he' hm' =>
      have hlt : (unpackMantissa b).toNat < Nat.pow 2 52 := (unpackMantissa b).isLt
      omega
  | normal _ hs he hm =>
    cases hc with
    | subnormal _ hs' he' hexp' hm' =>
      have hlt : (unpackMantissa c).toNat < Nat.pow 2 52 := (unpackMantissa c).isLt
      omega
    | normal _ hs' he' hm' => exact bits_ext (hs.trans hs'.symm) (by omega) (by omega)

theorem eq_of_unpack_eq (h : x.toModel.unpack = y.toModel.unpack) : x = y := by
  obtain ⟨⟨⟨b⟩, hb⟩⟩ := x
  obtain ⟨⟨⟨c⟩, hc⟩⟩ := y
  have hunpack : UnpackedFloat.unpack .binary64 b = UnpackedFloat.unpack .binary64 c := h
  obtain rfl : b = c := (standsFor_unpack b).unique (hunpack ▸ standsFor_unpack c) hb hc
  rfl

/-- NaN is the only number that is not equal to itself. -/
theorem beq_self {x : Number} (h : x.isNaN = false) : (x == x) = true := by
  change x.toModel.unpack.isNaN = false at h
  change (x.toModel.unpack.compare x.toModel.unpack == some .eq) = true
  cases hx : x.toModel.unpack with
  | notANumber =>
    rw [hx] at h
    cases h
  | infinity sign => cases sign <;> rfl
  | zero sign => rfl
  | finite sign mantissa exponent =>
    have he : compare exponent exponent = .eq := Std.ReflCmp.compare_self
    have hm : compare mantissa mantissa = .eq := Std.ReflCmp.compare_self
    have hmagnitude : (compare exponent exponent).then (compare mantissa mantissa) = .eq := by
      rw [he, hm]
      rfl
    cases sign with
    | negative =>
      change (some ((compare exponent exponent).then (compare mantissa mantissa)).swap == some .eq) = true
      rw [hmagnitude]
      rfl
    | positive =>
      change (some ((compare exponent exponent).then (compare mantissa mantissa)) == some .eq) = true
      rw [hmagnitude]
      rfl

theorem eq_or_zeros_of_compare (h : u.compare v = some .eq) :
    u = v ∨ ∃ s t, u = .zero s ∧ v = .zero t := by
  cases u with
  | notANumber => cases h
  | infinity s =>
    cases v with
    | infinity t =>
      have hsame : s = t := by
        cases s <;> cases t <;> first | rfl | cases h
      rw [hsame]
      exact .inl rfl
    | notANumber => cases s <;> cases h
    | zero t => cases s <;> cases h
    | finite t n f hn => cases s <;> cases h
  | zero s =>
    cases v with
    | zero t => exact .inr ⟨s, t, rfl, rfl⟩
    | infinity t => cases t <;> cases h
    | notANumber => cases h
    | finite t n f hn => cases t <;> cases h
  | finite s m e hm =>
    cases v with
    | infinity t => cases s <;> cases t <;> cases h
    | notANumber => cases s <;> cases h
    | zero t => cases s <;> cases h
    | finite t n f hn =>
      have hsame : s = t ∧ (compare e f).then (compare m n) = .eq := by
        cases s with
        | negative =>
          cases t with
          | negative => exact ⟨rfl, Ordering.swap_eq_eq.mp (Option.some.inj h)⟩
          | positive => cases h
        | positive =>
          cases t with
          | negative => cases h
          | positive => exact ⟨rfl, Option.some.inj h⟩
      obtain ⟨rfl, heq⟩ := hsame
      rw [Ordering.then_eq_eq] at heq
      obtain rfl : e = f := Std.LawfulEqCmp.eq_of_compare heq.1
      obtain rfl : m = n := Std.LawfulEqCmp.eq_of_compare heq.2
      exact .inl rfl

theorem beq_zero_of_unpack {s : Sign} (h : x.toModel.unpack = .zero s) : (x == 0) = true := by
  change (x.toModel.unpack.compare (0 : Number).toModel.unpack == some .eq) = true
  rw [h]
  rfl

/-- Numbers that compare equal are one number, or both are zeros. -/
theorem eq_or_zeros_of_beq (h : (x == y) = true) : x = y ∨ ((x == 0) = true ∧ (y == 0) = true) := by
  have hcompare : x.toModel.unpack.compare y.toModel.unpack = some .eq := eq_of_beq h
  rcases eq_or_zeros_of_compare hcompare with hsame | ⟨s, t, hx, hy⟩
  · exact .inl (eq_of_unpack_eq hsame)
  · exact .inr ⟨beq_zero_of_unpack hx, beq_zero_of_unpack hy⟩

/-- The number without the sign of a zero. -/
def unsigned (x : Number) : Number := if x == 0 then 0 else x

theorem unsigned_eq_of_beq (h : (x == y) = true) : x.unsigned = y.unsigned := by
  rcases eq_or_zeros_of_beq h with rfl | ⟨hx, hy⟩
  · rfl
  · rw [unsigned, unsigned, if_pos hx, if_pos hy]

/-- Of a number that is not zero nothing is forgotten. -/
theorem eq_of_unsigned_eq (h : x.unsigned = y.unsigned) (hy : (y == 0) = false) : x = y := by
  unfold unsigned at h
  rw [hy] at h
  split at h
  · subst h
    cases hy
  · exact h

end EventFold.Number
