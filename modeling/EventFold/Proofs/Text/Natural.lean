import EventFold.Text.Natural

/-!
# How natural numbers are written

A number has one shortest decimal text. What is read as the number is that text with any number of zeros in front
and, before these, a plus sign or nothing.
-/

namespace EventFold.Text

/-- The shortest decimal text of a number, behind zeros and an optional plus sign. -/
def Spells (s : List Char) (n : Nat) : Prop :=
  ∃ sign zeros, (sign = [] ∨ sign = ['+']) ∧ s = sign ++ (List.replicate zeros '0' ++ Nat.toDigits 10 n)

variable {s digits : List Char} {c : Char} {n zeros : Nat}

theorem digitChar_of_isDigit (h : c.isDigit = true) : (c.toNat - '0'.toNat).digitChar = c := by
  have hall : ∀ m : Nat, m < 58 → 48 ≤ m → (m - 48).digitChar = Char.ofNat m := by decide
  obtain ⟨hlow, hhigh⟩ := Char.isDigit_iff_toNat.mp h
  have hc := hall c.toNat (Nat.lt_succ_of_le hhigh) hlow
  rwa [Char.ofNat_toNat] at hc

theorem lt_ten_of_isDigit (h : c.isDigit = true) : c.toNat - '0'.toNat < 10 := by
  obtain ⟨hlow, hhigh⟩ := Char.isDigit_iff_toNat.mp h
  have hnine : '9'.toNat = '0'.toNat + 9 := rfl
  omega

/-- Digits behind a number that is not zero become the last ones of its shortest text. -/
theorem toDigits_ofDigitChars (hn : n ≠ 0) (h : digits.all Char.isDigit = true) :
    Nat.toDigits 10 (Nat.ofDigitChars 10 digits n) = Nat.toDigits 10 n ++ digits := by
  induction digits generalizing n with
  | nil => rw [Nat.ofDigitChars_nil, List.append_nil]
  | cons c rest ih =>
    rw [List.all_cons, Bool.and_eq_true] at h
    have hlt := lt_ten_of_isDigit h.1
    have hlast := digitChar_of_isDigit h.1
    rw [Nat.ofDigitChars_cons]
    generalize c.toNat - '0'.toNat = d at hlt hlast
    have hsplit : Nat.toDigits 10 (10 * n + d) = Nat.toDigits 10 n ++ [c] := by
      rw [Nat.toDigits_of_base_le (by omega) (by omega), show (10 * n + d) / 10 = n by omega,
        show (10 * n + d) % 10 = d by omega, hlast]
    rw [ih (by omega) h.2, hsplit, List.append_assoc, List.singleton_append]

/-- Digits are the shortest text of their number behind zeros. The first digit that is no zero begins it. -/
theorem eq_zeros_append_toDigits (hne : digits ≠ []) (h : digits.all Char.isDigit = true) :
    ∃ zeros, digits = List.replicate zeros '0' ++ Nat.toDigits 10 (Nat.ofDigitChars 10 digits 0) := by
  induction digits with
  | nil => exact absurd rfl hne
  | cons c rest ih =>
    rw [List.all_cons, Bool.and_eq_true] at h
    by_cases hzero : c = '0'
    · have hvalue : Nat.ofDigitChars 10 (c :: rest) 0 = Nat.ofDigitChars 10 rest 0 := by
        rw [Nat.ofDigitChars_cons, hzero, Nat.sub_self]
      rw [hvalue, hzero]
      by_cases hlast : rest = []
      · exact ⟨0, by rw [hlast]; rfl⟩
      · obtain ⟨zeros, hrest⟩ := ih hlast h.2
        refine ⟨zeros + 1, ?_⟩
        rw [List.replicate_succ, List.cons_append, ← hrest]
    · have hlt := lt_ten_of_isDigit h.1
      have hfirst := digitChar_of_isDigit h.1
      refine ⟨0, ?_⟩
      rw [Nat.ofDigitChars_cons]
      generalize c.toNat - '0'.toNat = d at hlt hfirst
      have hd : d ≠ 0 := by
        rintro rfl
        exact hzero hfirst.symm
      rw [Nat.mul_zero, Nat.zero_add, toDigits_ofDigitChars hd h.2, Nat.toDigits_of_lt_base hlt, hfirst]
      rfl

theorem isDigit_of_mem_spelled (hc : c ∈ List.replicate zeros '0' ++ Nat.toDigits 10 n) : c.isDigit = true := by
  rcases List.mem_append.mp hc with hzero | hdigit
  · rw [List.eq_of_mem_replicate hzero]
    rfl
  · exact Nat.isDigit_of_mem_toDigits (by omega) (by omega) hdigit

theorem ofDigitChars_spelled (zeros n : Nat) :
    Nat.ofDigitChars 10 (List.replicate zeros '0' ++ Nat.toDigits 10 n) 0 = n := by
  induction zeros with
  | zero => exact Nat.ofDigitChars_ten_toDigits
  | succ k ih =>
    rw [List.replicate_succ, List.cons_append, Nat.ofDigitChars_cons]
    exact ih

theorem natural?_plus (digits : List Char) : natural? ('+' :: digits) =
    if !digits.isEmpty && digits.all Char.isDigit then some (Nat.ofDigitChars 10 digits 0) else none :=
  rfl

theorem natural?_plain (h : ∀ t, digits ≠ '+' :: t) : natural? digits =
    if !digits.isEmpty && digits.all Char.isDigit then some (Nat.ofDigitChars 10 digits 0) else none := by
  unfold natural?
  split
  · exact absurd rfl (h _)
  · rfl

theorem digits_eq_some_iff : (if !digits.isEmpty && digits.all Char.isDigit
      then some (Nat.ofDigitChars 10 digits 0) else none) = some n ↔
    ∃ zeros, digits = List.replicate zeros '0' ++ Nat.toDigits 10 n := by
  constructor
  · intro h
    split at h
    · rename_i hdigits
      rw [Bool.and_eq_true, Bool.not_eq_true', List.isEmpty_eq_false_iff] at hdigits
      rw [← Option.some.inj h]
      exact eq_zeros_append_toDigits hdigits.1 hdigits.2
    · cases h
  · rintro ⟨zeros, rfl⟩
    have hall : (List.replicate zeros '0' ++ Nat.toDigits 10 n).all Char.isDigit = true :=
      List.all_eq_true.mpr fun c hc => isDigit_of_mem_spelled hc
    have hne : (List.replicate zeros '0' ++ Nat.toDigits 10 n).isEmpty = false := by
      simp [Nat.toDigits_ne_nil]
    rw [hall, hne, ofDigitChars_spelled]
    rfl

theorem natural?_eq_some_iff : natural? s = some n ↔ Spells s n := by
  by_cases hplus : ∃ t, s = '+' :: t
  · obtain ⟨t, rfl⟩ := hplus
    rw [natural?_plus, digits_eq_some_iff]
    constructor
    · rintro ⟨zeros, rfl⟩
      exact ⟨['+'], zeros, .inr rfl, rfl⟩
    · rintro ⟨sign, zeros, rfl | rfl, h⟩
      · have hdigit := isDigit_of_mem_spelled (c := '+') (by rw [← List.nil_append (_ ++ _), ← h]; simp)
        cases hdigit
      · exact ⟨zeros, List.tail_eq_of_cons_eq h⟩
  · rw [natural?_plain fun t ht => hplus ⟨t, ht⟩, digits_eq_some_iff]
    constructor
    · rintro ⟨zeros, rfl⟩
      exact ⟨[], zeros, .inl rfl, rfl⟩
    · rintro ⟨sign, zeros, rfl | rfl, h⟩
      · exact ⟨zeros, h⟩
      · exact absurd ⟨_, h⟩ hplus

theorem Spells.unique {m : Nat} (hm : Spells s m) (hn : Spells s n) : m = n :=
  Option.some.inj ((natural?_eq_some_iff.mpr hm).symm.trans (natural?_eq_some_iff.mpr hn))

theorem spells_toDigits (n : Nat) : Spells (Nat.toDigits 10 n) n :=
  ⟨[], 0, .inl rfl, rfl⟩

end EventFold.Text
