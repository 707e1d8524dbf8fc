import EventFold.Proofs.Json.Numeral

/-!
# The grammar of numbers

A number is a sign, digits of which the first is no zero unless it stands alone, perhaps a point with digits
behind it, and perhaps an exponent. A text that is spelled so is read as the literal that it stands for, and
nothing else is. How large the number is has no part in this.
-/

namespace EventFold.Json

def AreDigits (ds : List Char) : Prop := ds ≠ [] ∧ ∀ c ∈ ds, c.isDigit = true

/-- The digits before the point. -/
def AreWholeDigits (ds : List Char) : Prop := AreDigits ds ∧ (ds.head? ≠ some '0' ∨ ds.length = 1)

inductive SpellsFraction : List Char → Option (List Char) → Prop where
  | none : SpellsFraction [] none
  | point {ds : List Char} : AreDigits ds → SpellsFraction ('.' :: ds) (some ds)

inductive SpellsSign : List Char → Bool → Prop where
  | none : SpellsSign [] false
  | plus : SpellsSign ['+'] false
  | minus : SpellsSign ['-'] true

inductive SpellsPower : List Char → Option Int → Prop where
  | none : SpellsPower [] none
  | power {e : Char} {sign ds : List Char} {negative : Bool} : e = 'e' ∨ e = 'E' → SpellsSign sign negative →
    AreDigits ds → SpellsPower (e :: (sign ++ ds))
      (some (if negative then -(Nat.ofDigitChars 10 ds 0 : Int) else Nat.ofDigitChars 10 ds 0))

inductive SpellsUnsigned (negative : Bool) : List Char → Literal → Prop where
  | parts {ds point power : List Char} {fraction : Option (List Char)} {exponent : Option Int} :
    AreWholeDigits ds → SpellsFraction point fraction → SpellsPower power exponent →
    SpellsUnsigned negative (ds ++ (point ++ power)) ⟨negative, ds, fraction, exponent⟩

inductive SpellsLiteral : List Char → Literal → Prop where
  | plain {text : List Char} {l : Literal} : SpellsUnsigned false text l → SpellsLiteral text l
  | minus {text : List Char} {l : Literal} : SpellsUnsigned true text l → SpellsLiteral ('-' :: text) l

variable {s ds rest text sign : List Char} {c : Char} {l : Literal} {negative : Bool} {fraction : Option (List Char)}
  {exponent : Option Int}

section Digits

theorem AreDigits.eq_cons (h : AreDigits ds) : ∃ d t, ds = d :: t ∧ d.isDigit = true := by
  obtain ⟨d, t, rfl⟩ := List.exists_cons_of_ne_nil h.1
  exact ⟨d, t, rfl, h.2 d List.mem_cons_self⟩

theorem digits?_of_digits (h : AreDigits ds) (hrest : EndsDigits rest) :
    digits? (ds ++ rest) = some (ds, rest) := by
  have hdigits : digits? ds = some (ds, []) := by
    simp [digits?, splitDigits_of_all h.2, h.1]
  rw [digits?_append hrest, hdigits]
  rfl

theorem digits_of_digits? (h : digits? s = some (ds, rest)) : s = ds ++ rest ∧ AreDigits ds := by
  unfold digits? Number.splitDigits at h
  dsimp only at h
  split at h
  · cases h
  · rename_i hne
    cases h
    refine ⟨List.takeWhile_append_dropWhile.symm, ?_, List.all_eq_true.mp List.all_takeWhile⟩
    rintro hnil
    rw [hnil] at hne
    exact hne rfl

theorem whole?_of_digits (h : AreWholeDigits ds) (hrest : EndsDigits rest) :
    whole? (ds ++ rest) = some (ds, rest) := by
  have hlead : (ds.head? != some '0' || ds.length == 1) = true := by
    simpa using h.2
  rw [whole?_eq, digits?_of_digits h.1 hrest, Option.bind_some, if_pos hlead]

theorem digits_of_whole? (h : whole? s = some (ds, rest)) : s = ds ++ rest ∧ AreWholeDigits ds := by
  rw [whole?_eq] at h
  obtain ⟨p, hp, h⟩ := Option.bind_eq_some_iff.mp h
  split at h
  · rename_i hlead
    cases h
    obtain ⟨hs, hds⟩ := digits_of_digits? hp
    exact ⟨hs, hds, by simpa using hlead⟩
  · cases h

end Digits

section Parts

theorem SpellsPower.endsDigits (h : SpellsPower text exponent) : EndsDigits text := by
  cases h with
  | none => exact endsDigits_nil
  | power he _ _ => rcases he with rfl | rfl <;> exact endsDigits_cons rfl _

theorem SpellsPower.ne_point (h : SpellsPower text exponent) (t : List Char) : text ≠ '.' :: t := by
  rintro rfl
  cases h with
  | power he _ _ => rcases he with he | he <;> cases he

theorem fraction?_of_spells (h : SpellsFraction text fraction) (hrest : SpellsPower rest exponent) :
    fraction? (text ++ rest) = some (fraction, rest) := by
  cases h with
  | none => exact fraction?_plain hrest.ne_point
  | point hds =>
    rw [List.cons_append, fraction?_point, digits?_of_digits hds hrest.endsDigits]
    rfl

theorem SpellsFraction.endsDigits (h : SpellsFraction text fraction) (hrest : EndsDigits rest) :
    EndsDigits (text ++ rest) := by
  cases h with
  | none => exact hrest
  | point _ => exact endsDigits_cons rfl _

theorem spells_of_fraction? (h : fraction? s = some (fraction, rest)) :
    ∃ text, s = text ++ rest ∧ SpellsFraction text fraction := by
  unfold fraction? at h
  split at h
  · obtain ⟨⟨ds, t⟩, hds, heq⟩ := Option.map_eq_some_iff.mp h
    cases heq
    obtain ⟨rfl, hdigits⟩ := digits_of_digits? hds
    exact ⟨_, rfl, .point hdigits⟩
  · cases h
    exact ⟨[], rfl, .none⟩

theorem splitSign_of_spells (h : SpellsSign sign negative) (hds : AreDigits ds) :
    Number.splitSign (sign ++ ds) = (negative, ds) := by
  cases h with
  | plus => rfl
  | minus => rfl
  | none =>
    obtain ⟨d, t, rfl, hd⟩ := hds.eq_cons
    rw [List.nil_append]
    unfold Number.splitSign
    split
    · rename_i heq
      cases heq
      cases hd
    · rename_i heq
      cases heq
      cases hd
    · rfl

theorem spells_splitSign (s : List Char) :
    ∃ sign, s = sign ++ (Number.splitSign s).2 ∧ SpellsSign sign (Number.splitSign s).1 := by
  unfold Number.splitSign
  split
  · exact ⟨_, rfl, .minus⟩
  · exact ⟨_, rfl, .plus⟩
  · exact ⟨_, rfl, .none⟩

theorem power?_of_spells (h : SpellsPower text exponent) : power? text = some (exponent, []) := by
  cases h with
  | none => rfl
  | @power e sign ds negative he hsign hds =>
    have hmark : (e == 'e' || e == 'E') = true := by
      simpa using he
    have hread := digits?_of_digits hds endsDigits_nil
    rw [List.append_nil] at hread
    rw [power?, if_pos hmark, splitSign_of_spells hsign hds]
    simp [hread]

theorem spells_of_power? (h : power? s = some (exponent, rest)) :
    ∃ text, s = text ++ rest ∧ SpellsPower text exponent := by
  cases s with
  | nil =>
    cases h
    exact ⟨[], rfl, .none⟩
  | cons e s =>
    rw [power?] at h
    split at h
    · rename_i he
      obtain ⟨sign, hs, hsign⟩ := spells_splitSign s
      generalize Number.splitSign s = p at h hs hsign
      obtain ⟨⟨ds, t⟩, hds, heq⟩ := Option.bind_eq_some_iff.mp h
      cases heq
      obtain ⟨htext, hdigits⟩ := digits_of_digits? hds
      refine ⟨e :: (sign ++ ds), ?_, .power (by simpa using he) hsign hdigits⟩
      rw [List.cons_append, List.append_assoc, ← htext, ← hs]
    · cases h
      exact ⟨[], rfl, .none⟩

end Parts

section Literals

theorem unsigned?_of_spells (h : SpellsUnsigned negative text l) : unsigned? negative text = some (l, []) := by
  cases h with
  | parts hds hpoint hpower =>
    have hwhole := whole?_of_digits hds (hpoint.endsDigits hpower.endsDigits)
    simp [unsigned?, hwhole, fraction?_of_spells hpoint hpower, power?_of_spells hpower]

theorem spells_of_unsigned? (h : unsigned? negative s = some (l, rest)) :
    ∃ text, s = text ++ rest ∧ SpellsUnsigned negative text l := by
  obtain ⟨⟨ds, s₁⟩, hds, h⟩ := Option.bind_eq_some_iff.mp h
  obtain ⟨⟨fraction, s₂⟩, hfraction, h⟩ := Option.bind_eq_some_iff.mp h
  obtain ⟨⟨exponent, s₃⟩, hexponent, heq⟩ := Option.bind_eq_some_iff.mp h
  cases heq
  obtain ⟨rfl, hwhole⟩ := digits_of_whole? hds
  obtain ⟨point, rfl, hpoint⟩ := spells_of_fraction? hfraction
  obtain ⟨power, rfl, hpower⟩ := spells_of_power? hexponent
  exact ⟨ds ++ (point ++ power), by simp, .parts hwhole hpoint hpower⟩

theorem SpellsUnsigned.ne_minus (h : SpellsUnsigned negative text l) (t : List Char) : text ≠ '-' :: t := by
  cases h with
  | parts hds _ _ =>
    obtain ⟨d, u, rfl, hd⟩ := hds.1.eq_cons
    rintro heq
    cases heq
    cases hd

theorem literal?_of_spells (h : SpellsLiteral text l) : literal? text = some (l, []) := by
  cases h with
  | plain h => rw [literal?_plain h.ne_minus, unsigned?_of_spells h]
  | minus h => rw [literal?_minus, unsigned?_of_spells h]

theorem spells_of_literal? (h : literal? s = some (l, rest)) :
    ∃ text, s = text ++ rest ∧ SpellsLiteral text l := by
  by_cases hminus : ∃ t, s = '-' :: t
  · obtain ⟨t, rfl⟩ := hminus
    obtain ⟨text, rfl, hspells⟩ := spells_of_unsigned? (literal?_minus t ▸ h)
    exact ⟨_, rfl, .minus hspells⟩
  · rw [literal?_plain fun t ht => hminus ⟨t, ht⟩] at h
    obtain ⟨text, rfl, hspells⟩ := spells_of_unsigned? h
    exact ⟨text, rfl, .plain hspells⟩

end Literals

end EventFold.Json
