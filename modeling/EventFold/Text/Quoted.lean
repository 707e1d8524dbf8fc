import EventFold.Text.Hidden

/-!
# Quoted text

Messages and printed forms quote text between double quotes. The quote, the backslash and four
control characters have a letter of their own behind a backslash; every other hidden character is
written by its number in lower-case hexadecimal, `\u{301}`. All else stands for itself.

A quoted text never holds a line break, whatever it quotes (`newline_not_mem_quote`).
-/

namespace EventFold.Text

def quoteLetter? : Char → Option Char
  | '"' => some '"'
  | '\\' => some '\\'
  | '\n' => some 'n'
  | '\r' => some 'r'
  | '\t' => some 't'
  | '\x00' => some '0'
  | _ => none

def quoteChar (c : Char) : List Char :=
  match quoteLetter? c with
  | some letter => ['\\', letter]
  | none =>
    if isHidden c then ['\\', 'u', '\x7b'] ++ Nat.toDigits 16 c.toNat ++ ['\x7d'] else [c]

def quoteChars (s : List Char) : List Char :=
  '"' :: s.flatMap quoteChar ++ ['"']

def quote (s : String) : String :=
  String.ofList (quoteChars s.toList)

theorem newline_not_mem_toDigits (n : Nat) : '\n' ∉ Nat.toDigits 16 n := by
  induction n using Nat.strongRecOn with
  | ind n ih =>
    rw [Nat.toDigits_eq_if (by decide)]
    split
    · simp
    · have := ih (n / 16) (by omega)
      simp [this]

theorem newline_not_mem_quoteChar (c : Char) : '\n' ∉ quoteChar c := by
  by_cases hc : c = '\n'
  · subst hc; decide
  · unfold quoteChar
    split
    · rename_i l hl
      unfold quoteLetter? at hl
      split at hl <;> simp_all <;> subst hl <;> decide
    · split
      · simpa using newline_not_mem_toDigits c.toNat
      · simpa using Ne.symm hc

theorem newline_not_mem_quoteChars (s : List Char) : '\n' ∉ quoteChars s := by
  simp only [quoteChars, List.cons_append, List.mem_cons, List.mem_append, List.mem_flatMap,
    List.not_mem_nil, or_false, not_or, not_exists, not_and]
  exact ⟨by decide, fun c _ => newline_not_mem_quoteChar c, by decide⟩

/-- A quoted text is one line. -/
theorem newline_not_mem_quote (s : String) : '\n' ∉ (quote s).toList := by
  simpa [quote] using newline_not_mem_quoteChars s.toList

end EventFold.Text
