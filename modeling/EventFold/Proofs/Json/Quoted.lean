import EventFold.Json.Quoted
import Mathlib.Data.Option.Basic

/-!
# Strings are read as they were written

Every character is escaped into one piece that stands for the character, so no halves of surrogate pairs
come up in a written string.
-/

namespace EventFold.Json

variable {c letter : Char} {s rest : List Char}

theorem unescape?_of_escapeLetter? (h : escapeLetter? c = some letter) :
    unescape? letter = some c ∧ letter ≠ 'u' := by
  unfold escapeLetter? at h
  split at h
  all_goals cases h
  all_goals exact ⟨rfl, by decide⟩

theorem hexCode?_of_control : ∀ n, n < 0x20 →
    hexCode? '0' '0' (Nat.digitChar (n / 16)) (Nat.digitChar (n % 16)) = some n := by
  decide

theorem pieces?_letter (h : letter ≠ 'u') (s : List Char) : pieces? ('\\' :: letter :: s) = do
    let c ← unescape? letter
    let (ps, rest) ← pieces? s
    return (.char c :: ps, rest) := by
  rw [pieces?]
  intro a b c d s' hu _
  exact h hu

theorem pieces?_code (a b c d : Char) (s : List Char) : pieces? ('\\' :: 'u' :: a :: b :: c :: d :: s) = do
    let code ← hexCode? a b c d
    let (ps, rest) ← pieces? s
    return (.ofCode code :: ps, rest) := by
  rw [pieces?]

theorem pieces?_plain (hq : c ≠ '"') (hb : c ≠ '\\') (hc : 0x20 ≤ c.toNat) (s : List Char) :
    pieces? (c :: s) = (pieces? s).map fun p => (.char c :: p.1, p.2) := by
  rw [pieces?]
  · have hallowed : (guard (0x20 ≤ c.toNat) : Option Unit) = some () := if_pos hc
    rw [hallowed]
    cases pieces? s <;> rfl
  · exact hq
  · intro a b d e s' hu _
    exact hb hu
  · intro e s' hu _
    exact hb hu

/-- A character that is written stands for itself. -/
theorem pieces?_escapeChar (c : Char) (s : List Char) :
    pieces? (escapeChar c ++ s) = (pieces? s).map fun p => (.char c :: p.1, p.2) := by
  unfold escapeChar
  split
  · rename_i letter h
    obtain ⟨hc, hu⟩ := unescape?_of_escapeLetter? h
    change pieces? ('\\' :: letter :: s) = _
    rw [pieces?_letter hu, hc]
    cases pieces? s <;> rfl
  · rename_i h
    split
    · rename_i hlow
      change pieces? ('\\' :: 'u' :: '0' :: '0' :: Nat.digitChar (c.toNat / 16) ::
        Nat.digitChar (c.toNat % 16) :: s) = _
      have hpiece : Piece.ofCode c.toNat = .char c := by
        unfold Piece.ofCode
        rw [if_neg (by simp; omega), Char.ofNat_toNat]
      rw [pieces?_code, hexCode?_of_control _ hlow]
      cases pieces? s with
      | none => rfl
      | some p => simp [hpiece]
    · rename_i hhigh
      refine pieces?_plain ?_ ?_ (Nat.le_of_not_lt hhigh) s
      · rintro rfl
        cases h
      · rintro rfl
        cases h

theorem pieces?_quoted (s rest : List Char) :
    pieces? (s.flatMap escapeChar ++ '"' :: rest) = some (s.map .char, rest) := by
  induction s with
  | nil => rw [List.flatMap_nil, List.nil_append, pieces?]; rfl
  | cons c s ih => rw [List.flatMap_cons, List.append_assoc, pieces?_escapeChar, ih]; rfl

theorem joined?_chars (use : Use) (s : List Char) : joined? use none (s.map .char) = some s := by
  induction s with
  | nil => rfl
  | cons c s ih => rw [List.map_cons, joined?, ih]; rfl

/-- A text is read back from behind the opening quote, whatever follows. -/
theorem string?_quoted (use : Use) (s : String) (rest : List Char) :
    string? use (s.toList.flatMap escapeChar ++ '"' :: rest) = some (s, rest) := by
  rw [string?, pieces?_quoted]
  simp [joined?_chars]

end EventFold.Json
