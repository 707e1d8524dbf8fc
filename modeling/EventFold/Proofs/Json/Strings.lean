import EventFold.Proofs.Json.Quoted

/-!
# The grammar of strings

What stands between the quotes of a string spells pieces, each a character or a half of a surrogate pair, and the
pieces join to the characters of the string: two halves that fit make one, and a half that is left alone makes none.
A string that is kept is read exactly if it is spelled and joined so.
-/

namespace EventFold.Json

/-- What may stand between the quotes of a string, and the pieces that it stands for. -/
inductive SpellsPieces : List Char → List Piece → Prop where
  | nil : SpellsPieces [] []
  | plain {c : Char} {text : List Char} {ps : List Piece} : c ≠ '"' → c ≠ '\\' → 0x20 ≤ c.toNat →
    SpellsPieces text ps → SpellsPieces (c :: text) (.char c :: ps)
  | letter {letter c : Char} {text : List Char} {ps : List Piece} : unescape? letter = some c →
    SpellsPieces text ps → SpellsPieces ('\\' :: letter :: text) (.char c :: ps)
  | code {a b c d : Char} {code : Nat} {text : List Char} {ps : List Piece} : hexCode? a b c d = some code →
    SpellsPieces text ps → SpellsPieces ('\\' :: 'u' :: a :: b :: c :: d :: text) (.ofCode code :: ps)

/-- The characters that pieces make if no half of a pair is left alone. -/
inductive Joins : List Piece → List Char → Prop where
  | nil : Joins [] []
  | char {c : Char} {ps : List Piece} {s : List Char} : Joins ps s → Joins (.char c :: ps) (c :: s)
  | pair {upper lower : Nat} {c : Char} {ps : List Piece} {s : List Char} : joinHalves? upper lower = some c →
    Joins ps s → Joins (.half upper :: .half lower :: ps) (c :: s)

/-- A string between its quotes. -/
inductive SpellsString : List Char → String → Prop where
  | quoted {text s : List Char} {ps : List Piece} : SpellsPieces text ps → Joins ps s →
    SpellsString ('"' :: (text ++ ['"'])) (String.ofList s)

variable {text s rest : List Char} {ps : List Piece} {t : String}

theorem pieces?_of_spells (h : SpellsPieces text ps) (rest : List Char) :
    pieces? (text ++ '"' :: rest) = some (ps, rest) := by
  induction h with
  | nil => rw [List.nil_append, pieces?]
  | plain hq hb hc _ ih => rw [List.cons_append, pieces?_plain hq hb hc, ih]; rfl
  | @letter letter c _ _ hc _ ih =>
    have hu : letter ≠ 'u' := by
      rintro rfl
      cases hc
    rw [List.cons_append, List.cons_append, pieces?_letter hu, hc, ih]
    rfl
  | code hcode _ ih =>
    simp only [List.cons_append]
    rw [pieces?_code, hcode, ih]
    rfl

theorem spells_of_pieces? {s : List Char} {ps : List Piece} {rest : List Char} (h : pieces? s = some (ps, rest)) :
    ∃ text, s = text ++ '"' :: rest ∧ SpellsPieces text ps := by
  fun_induction pieces? s generalizing ps with
  | case1 => cases h
  | case2 s =>
    cases h
    exact ⟨[], rfl, .nil⟩
  | case3 a b c d s ih =>
    obtain ⟨code, hcode, h⟩ := Option.bind_eq_some_iff.mp h
    obtain ⟨⟨ps', rest'⟩, hps, heq⟩ := Option.bind_eq_some_iff.mp h
    cases heq
    obtain ⟨text, rfl, hspells⟩ := ih hps
    exact ⟨_, rfl, .code hcode hspells⟩
  | case4 e s _ ih =>
    obtain ⟨c, hc, h⟩ := Option.bind_eq_some_iff.mp h
    obtain ⟨⟨ps', rest'⟩, hps, heq⟩ := Option.bind_eq_some_iff.mp h
    cases heq
    obtain ⟨text, rfl, hspells⟩ := ih hps
    exact ⟨_, rfl, .letter hc hspells⟩
  | case5 c s hq _ hb ih =>
    obtain ⟨_, hc, h⟩ := Option.bind_eq_some_iff.mp h
    obtain ⟨⟨ps', rest'⟩, hps, heq⟩ := Option.bind_eq_some_iff.mp h
    cases heq
    have hlow : 0x20 ≤ c.toNat := by
      by_contra hlow
      rw [guard, if_neg hlow] at hc
      cases hc
    -- A backslash is left to this case only at the end of the text, where the quote is missing.
    have hback : c ≠ '\\' := by
      rintro rfl
      cases s with
      | nil => cases hps
      | cons e s => exact hb e s rfl rfl
    obtain ⟨text, rfl, hspells⟩ := ih hps
    exact ⟨_, rfl, .plain hq hback hlow hspells⟩

theorem joined?_half (lower : Nat) (ps : List Piece) :
    joined? .kept none (.half lower :: ps) = joined? .kept (some lower) ps := by
  rw [joined?]
  cases joined? .kept (some lower) ps <;> rfl

theorem joined?_halves {upper lower : Nat} {c : Char} (h : joinHalves? upper lower = some c) (ps : List Piece) :
    joined? .kept (some upper) (.half lower :: ps) = (joined? .kept none ps).map (c :: ·) := by
  rw [joined?, Option.bind_some, h]

theorem joined?_char (c : Char) (ps : List Piece) :
    joined? .kept none (.char c :: ps) = (joined? .kept none ps).map (c :: ·) := by
  rw [joined?]
  cases joined? .kept none ps <;> rfl

theorem joined?_of_joins (h : Joins ps s) : joined? .kept none ps = some s := by
  induction h with
  | nil => rfl
  | char _ ih => rw [joined?_char, ih]; rfl
  | pair hc _ ih => rw [joined?_half, joined?_halves hc, ih]; rfl

/-- By recursion over single characters and over two halves at a time. -/
theorem joins_of_joined? : ∀ {ps : List Piece} {s : List Char}, joined? .kept none ps = some s → Joins ps s
  | [], s, h => by
    cases h
    exact .nil
  | .char c :: ps, s, h => by
    rw [joined?_char] at h
    obtain ⟨s', hs, rfl⟩ := Option.map_eq_some_iff.mp h
    exact .char (joins_of_joined? hs)
  | .half upper :: [], s, h => by cases h
  | .half upper :: .char c :: ps, s, h => by cases h
  | .half upper :: .half lower :: ps, s, h => by
    rw [joined?_half] at h
    cases hc : joinHalves? upper lower with
    | none =>
      rw [joined?, Option.bind_some, hc] at h
      cases h
    | some c =>
      rw [joined?_halves hc] at h
      obtain ⟨s', hs, rfl⟩ := Option.map_eq_some_iff.mp h
      exact .pair hc (joins_of_joined? hs)

theorem string?_of_spells (h : SpellsPieces text ps) (hs : Joins ps s) (rest : List Char) :
    string? .kept (text ++ '"' :: rest) = some (String.ofList s, rest) := by
  simp [string?, pieces?_of_spells h, joined?_of_joins hs]

theorem spells_of_string? (h : string? .kept s = some (t, rest)) :
    ∃ text, s = text ++ rest ∧ SpellsString ('"' :: text) t := by
  obtain ⟨⟨ps, rest'⟩, hps, h⟩ := Option.bind_eq_some_iff.mp h
  obtain ⟨chars, hchars, heq⟩ := Option.bind_eq_some_iff.mp h
  cases heq
  obtain ⟨text, rfl, hspells⟩ := spells_of_pieces? hps
  exact ⟨text ++ ['"'], by simp, .quoted hspells (joins_of_joined? hchars)⟩

end EventFold.Json
