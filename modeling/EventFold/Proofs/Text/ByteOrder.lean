import Mathlib.Data.List.Basic
import Mathlib.Data.String.Basic

/-!
# The order of texts

Texts are ordered character by character. Their bytes in UTF-8 are in the same order: a greater character has
greater bytes, at the first of them that differs, whatever follows.
-/

namespace EventFold.Text

variable {c d : Char} {s t : List Char}

theorem toNat_val_lt (c : Char) : c.val.toNat < 0x110000 := by
  rcases c.valid with hlow | ⟨-, hhigh⟩
  · exact Nat.lt_trans hlow (by decide)
  · exact hhigh

/-- Of two numbers the smaller one is smaller at the first digit to base 64 that differs. -/
theorem digits_lt {m n : Nat} (h : m < n) :
    m / 262144 < n / 262144 ∨ m / 262144 = n / 262144 ∧ (m / 4096 % 64 < n / 4096 % 64 ∨
      m / 4096 % 64 = n / 4096 % 64 ∧ (m / 64 % 64 < n / 64 % 64 ∨
        m / 64 % 64 = n / 64 % 64 ∧ m % 64 < n % 64)) := by
  by_cases hfirst : m / 262144 = n / 262144
  · by_cases hsecond : m / 4096 = n / 4096
    · by_cases hthird : m / 64 = n / 64
      · omega
      · omega
    · omega
  · omega

/-- The bytes of the two characters differ before either ends, so nothing behind them matters. The cases are the
numbers of bytes that the characters take. -/
theorem utf8EncodeChar_append_lt (h : c < d) (xs ys : List UInt8) :
    String.utf8EncodeChar c ++ xs < String.utf8EncodeChar d ++ ys := by
  have hlt : c.val.toNat < d.val.toNat := h
  have hbound := toNat_val_lt d
  unfold String.utf8EncodeChar
  generalize c.val.toNat = m at hlt
  generalize d.val.toNat = n at hlt hbound
  have hdigits := digits_lt hlt
  have hmark (k : Nat) : (k % 64 + 128) % 2 ^ 8 = k % 64 + 128 := by omega
  have hlead (k : Nat) : (k % 8 + 240) % 2 ^ 8 = k % 8 + 240 := by omega
  dsimp only
  split_ifs <;> simp only [List.cons_append, List.nil_append, List.cons_lt_cons_iff, UInt8.lt_iff_toNat_lt,
    ← UInt8.toNat_inj, UInt8.toNat_ofNat', hmark, hlead] <;> try omega
  -- left are two characters of four bytes each, where any of the four digits may decide
  rcases hdigits with hfirst | ⟨hfirst, hsecond | ⟨hsecond, hthird | ⟨hthird, hfourth⟩⟩⟩ <;> omega

theorem flatMap_utf8EncodeChar_lt (h : s < t) :
    s.flatMap String.utf8EncodeChar < t.flatMap String.utf8EncodeChar := by
  induction h with
  | nil =>
    rename_i d t
    rw [List.flatMap_nil, List.flatMap_cons]
    cases hd : String.utf8EncodeChar d with
    | nil => exact absurd hd String.utf8EncodeChar_ne_nil
    | cons b bs => exact List.nil_lt_cons b _
  | rel hlt =>
    rw [List.flatMap_cons, List.flatMap_cons]
    exact utf8EncodeChar_append_lt hlt _ _
  | cons _ ih =>
    rw [List.flatMap_cons, List.flatMap_cons]
    exact List.append_left_lt ih

/-- A smaller text has smaller bytes. -/
theorem bytes_lt {s t : String} (h : s < t) : s.toUTF8.data.toList < t.toUTF8.data.toList := by
  have hbytes : ∀ u : String, u.toUTF8.data.toList = u.toList.flatMap String.utf8EncodeChar := by
    intro u
    rw [String.toUTF8_eq_toByteArray, ← String.utf8Encode_toList, List.utf8Encode, List.toList_data_toByteArray]
  rw [hbytes, hbytes]
  exact flatMap_utf8EncodeChar_lt (String.lt_iff_toList_lt.mp h)

end EventFold.Text
