import EventFold.Json.Writer
import EventFold.Proofs.Json.Reader

/-!
# Numbers in a text

What follows a numeral in a text does not matter if it stops the numeral, so a number is read within a text
as it is read alone. An integer of 64 bits is read as it was written.
-/

namespace EventFold.Json

variable {c : Char} {s rest : List Char}

theorem fraction?_point (s : List Char) :
    fraction? ('.' :: s) = (digits? s).map fun p => (some p.1, p.2) := rfl

theorem fraction?_plain (h : ∀ t, s ≠ '.' :: t) : fraction? s = some (none, s) := by
  unfold fraction?
  split
  · exact absurd rfl (h _)
  · rfl

theorem whole?_eq (s : List Char) : whole? s = (digits? s).bind fun p =>
    if p.1.head? != some '0' || p.1.length == 1 then some p else none := by
  unfold whole?
  cases digits? s with
  | none => rfl
  | some p =>
    change ((guard (p.1.head? != some '0' || p.1.length == 1) : Option Unit).bind fun _ => some (p.1, p.2)) =
      if p.1.head? != some '0' || p.1.length == 1 then some p else none
    by_cases hlead : (p.1.head? != some '0' || p.1.length == 1) = true
    · have hallowed : (guard (p.1.head? != some '0' || p.1.length == 1) : Option Unit) = some () :=
        if_pos hlead
      rw [hallowed, if_pos hlead]
      rfl
    · have hrefused : (guard (p.1.head? != some '0' || p.1.length == 1) : Option Unit) = none :=
        if_neg hlead
      rw [hrefused, if_neg hlead]
      rfl

/-- A number behind its sign. -/
def unsigned? (negative : Bool) (s : List Char) : Option (Literal × List Char) := do
  let (whole, s) ← whole? s
  let (fraction, s) ← fraction? s
  let (exponent, s) ← power? s
  return (⟨negative, whole, fraction, exponent⟩, s)

theorem literal?_minus (s : List Char) : literal? ('-' :: s) = unsigned? true s := rfl

theorem literal?_plain (h : ∀ t, s ≠ '-' :: t) : literal? s = unsigned? false s := by
  unfold literal?
  split
  · rename_i heq
    split at heq
    · exact absurd rfl (h _)
    · cases heq
      rfl

/-- No digit comes next. -/
def EndsDigits (s : List Char) : Prop := ∀ c t, s = c :: t → c.isDigit = false

theorem endsDigits_nil : EndsDigits [] := by
  rintro c t ⟨⟩

theorem endsDigits_cons (h : c.isDigit = false) (s : List Char) : EndsDigits (c :: s) := by
  rintro d t ⟨⟩
  exact h

theorem Stops.endsDigits (h : Stops rest) : EndsDigits rest := by
  intro c t hs
  have hc := h c t hs
  simp only [continues, Bool.or_eq_false_iff] at hc
  exact hc.1.1.1.1.1

theorem splitDigits_append (hrest : EndsDigits rest) (s : List Char) : Number.splitDigits (s ++ rest) =
    ((Number.splitDigits s).1, (Number.splitDigits s).2 ++ rest) := by
  induction s with
  | nil =>
    cases rest with
    | nil => rfl
    | cons c t => simp [Number.splitDigits, hrest c t rfl]
  | cons c s ih =>
    simp only [Number.splitDigits, Prod.mk.injEq] at ih
    cases hc : c.isDigit <;> simp [Number.splitDigits, hc, ih]

theorem digits?_append (hrest : EndsDigits rest) (s : List Char) :
    digits? (s ++ rest) = (digits? s).map fun p => (p.1, p.2 ++ rest) := by
  simp only [digits?, splitDigits_append hrest]
  split <;> rfl

theorem whole?_append (hrest : EndsDigits rest) (s : List Char) :
    whole? (s ++ rest) = (whole? s).map fun p => (p.1, p.2 ++ rest) := by
  rw [whole?_eq, whole?_eq, digits?_append hrest]
  cases digits? s with
  | none => rfl
  | some p =>
    simp only [Option.map_some, Option.bind_some]
    split <;> rfl

section Append

variable (hrest : Stops rest)
include hrest

theorem splitSign_append (s : List Char) : Number.splitSign (s ++ rest) =
    ((Number.splitSign s).1, (Number.splitSign s).2 ++ rest) := by
  cases s with
  | nil =>
    unfold Number.splitSign
    split
    · rename_i heq
      exact absurd heq (hrest.ne rfl)
    · rename_i heq
      exact absurd heq (hrest.ne rfl)
    · rfl
  | cons c s =>
    rw [List.cons_append]
    unfold Number.splitSign
    split <;> simp_all

theorem fraction?_append (s : List Char) :
    fraction? (s ++ rest) = (fraction? s).map fun p => (p.1, p.2 ++ rest) := by
  cases s with
  | nil =>
    have hpoint : ∀ t, [] ++ rest ≠ '.' :: t := fun t => hrest.ne rfl
    rw [fraction?_plain hpoint]
    rfl
  | cons c s =>
    by_cases hc : c = '.'
    · subst hc
      rw [List.cons_append, fraction?_point, fraction?_point, digits?_append hrest.endsDigits]
      cases digits? s <;> rfl
    · have hpoint : ∀ u t, c :: u ≠ '.' :: t := fun u t h => hc (List.cons.inj h).1
      rw [List.cons_append, fraction?_plain (hpoint _), fraction?_plain (hpoint _)]
      rfl

theorem power?_append (s : List Char) :
    power? (s ++ rest) = (power? s).map fun p => (p.1, p.2 ++ rest) := by
  cases s with
  | nil =>
    cases rest with
    | nil => rfl
    | cons c t =>
      have hc := hrest c t rfl
      simp only [continues, Bool.or_eq_false_iff] at hc
      simp [power?, hc]
  | cons c s =>
    simp only [List.cons_append, power?, splitSign_append hrest, digits?_append hrest.endsDigits]
    split
    · cases digits? (Number.splitSign s).2 <;> rfl
    · rfl

theorem unsigned?_append (negative : Bool) (s : List Char) :
    unsigned? negative (s ++ rest) = (unsigned? negative s).map fun p => (p.1, p.2 ++ rest) := by
  simp only [unsigned?, whole?_append hrest.endsDigits]
  cases whole? s with
  | none => rfl
  | some p =>
    simp only [Option.map_some, Option.bind_eq_bind, Option.bind_some, fraction?_append hrest]
    cases fraction? p.2 with
    | none => rfl
    | some q =>
      simp only [Option.map_some, Option.bind_some, power?_append hrest]
      cases power? q.2 <;> rfl

/-- What follows a number in a text has no part in reading it. -/
theorem literal?_append (s : List Char) :
    literal? (s ++ rest) = (literal? s).map fun p => (p.1, p.2 ++ rest) := by
  cases s with
  | nil =>
    have hminus : ∀ t, [] ++ rest ≠ '-' :: t := fun t => hrest.ne rfl
    rw [literal?_plain hminus, unsigned?_append hrest]
    rfl
  | cons c s =>
    by_cases hc : c = '-'
    · subst hc
      exact unsigned?_append hrest true s
    · have hminus : ∀ u t, c :: u ≠ '-' :: t := fun u t h => hc (List.cons.inj h).1
      rw [literal?_plain (hminus s), List.cons_append, literal?_plain (hminus _), ← List.cons_append]
      exact unsigned?_append hrest false (c :: s)

end Append

namespace Reader

theorem numeral_eq (s : List Char) : numeral s =
    match literal? s with
    | none => .error .malformed
    | some (l, rest) =>
      match l.numeral? with
      | none => .error .malformed
      | some n => .ok (n, rest) := by
  rw [numeral, bind_apply, take_apply]
  cases literal? s with
  | none => rfl
  | some r =>
    obtain ⟨l, rest⟩ := r
    simp only [Except.bind]
    cases l.numeral? <;> rfl

theorem numeral_append {n : Numeral} (h : numeral s = .ok (n, [])) (hrest : Stops rest) :
    numeral (s ++ rest) = .ok (n, rest) := by
  rw [numeral_eq] at h ⊢
  rw [literal?_append hrest]
  cases hl : literal? s with
  | none =>
    rw [hl] at h
    cases h
  | some p =>
    obtain ⟨l, s'⟩ := p
    simp only [hl] at h
    cases hn : l.numeral? with
    | none =>
      rw [hn] at h
      cases h
    | some m =>
      rw [hn] at h
      cases h
      simp [hn]

end Reader

section Integers

theorem head?_toDigits_ne_zero {m : Nat} (h : m ≠ 0) : (Nat.toDigits 10 m).head? ≠ some '0' := by
  induction m using Nat.strongRecOn with
  | ind m ih =>
    by_cases hm : m < 10
    · rw [Nat.toDigits_of_lt_base hm]
      have hall : ∀ d, d < 10 → d ≠ 0 → Nat.digitChar d ≠ '0' := by decide
      simpa using hall m hm h
    · have hlead := ih (m / 10) (by omega) (by omega)
      obtain ⟨d, ds, hd⟩ := List.exists_cons_of_ne_nil (Nat.toDigits_ne_nil (n := m / 10) (b := 10))
      rw [Nat.toDigits_of_base_le (by omega) (by omega), hd]
      rw [hd] at hlead
      exact hlead

theorem splitDigits_of_all {ds : List Char} (h : ∀ c ∈ ds, c.isDigit = true) :
    Number.splitDigits ds = (ds, []) := by
  induction ds with
  | nil => rfl
  | cons d ds ih =>
    have htail := ih fun c hc => h c (List.mem_cons_of_mem d hc)
    simp only [Number.splitDigits, Prod.mk.injEq] at htail
    simp [Number.splitDigits, h d List.mem_cons_self, htail]

theorem digits?_toDigits (m : Nat) : digits? (Nat.toDigits 10 m) = some (Nat.toDigits 10 m, []) := by
  have hall : ∀ c ∈ Nat.toDigits 10 m, c.isDigit = true :=
    fun c hc => Nat.isDigit_of_mem_toDigits (by omega) (by omega) hc
  simp [digits?, splitDigits_of_all hall]

theorem unsigned?_toDigits (negative : Bool) (m : Nat) :
    unsigned? negative (Nat.toDigits 10 m) = some (⟨negative, Nat.toDigits 10 m, none, none⟩, []) := by
  have hwhole : whole? (Nat.toDigits 10 m) = some (Nat.toDigits 10 m, []) := by
    have hlead : ((Nat.toDigits 10 m).head? != some '0' || (Nat.toDigits 10 m).length == 1) = true := by
      by_cases hm : m = 0
      · subst hm
        rfl
      · simp [head?_toDigits_ne_zero hm]
    rw [whole?_eq, digits?_toDigits, Option.bind_some, if_pos hlead]
  rw [unsigned?, hwhole]
  rfl

theorem literal?_integerChars (n : Int) : literal? (integerChars n) =
    some (⟨decide (n < 0), Nat.toDigits 10 n.natAbs, none, none⟩, []) := by
  unfold integerChars
  by_cases hn : n < 0
  · rw [if_pos hn, List.singleton_append, literal?_minus, unsigned?_toDigits, decide_eq_true hn]
  · have hminus : ∀ t, Nat.toDigits 10 n.natAbs ≠ '-' :: t := by
      intro t ht
      have hdigit : ('-').isDigit = true :=
        Nat.isDigit_of_mem_toDigits (b := 10) (n := n.natAbs) (by omega) (by omega) (by simp [ht])
      cases hdigit
    rw [if_neg hn, List.nil_append, literal?_plain hminus, unsigned?_toDigits, decide_eq_false hn]

theorem maxWord_eq : maxWord = 18446744073709551615 := rfl

/-- An integer of 64 bits, with a sign or without. -/
def IsWord (n : Int) : Prop := -(Nat.pow 2 63 : Nat) ≤ n ∧ n ≤ maxWord

theorem numeral_integerChars {n : Int} (h : IsWord n) :
    Reader.numeral (integerChars n) = .ok (.integer n, []) := by
  have hinteger : (Literal.mk (decide (n < 0)) (Nat.toDigits 10 n.natAbs) none none).integer? = some n := by
    obtain ⟨hlow, hhigh⟩ := h
    simp only [Literal.integer?, Option.isNone_none, Bool.and_self, if_true, Nat.ofDigitChars_ten_toDigits]
    by_cases hn : n < 0
    · have hlow' : n.natAbs ≤ Nat.pow 2 63 := by omega
      have hpos : 0 < n.natAbs := by omega
      have habs : -(n.natAbs : Int) = n := by omega
      have hrange : (decide (0 < n.natAbs) && decide (n.natAbs ≤ Nat.pow 2 63)) = true := by
        rw [decide_eq_true hpos, decide_eq_true hlow']
        rfl
      rw [decide_eq_true hn, if_pos rfl, if_pos hrange, habs]
    · have hhigh' : n.natAbs ≤ maxWord := by omega
      have habs : (n.natAbs : Int) = n := by omega
      rw [decide_eq_false hn, if_neg Bool.false_ne_true, if_pos hhigh', habs]
  rw [Reader.numeral_eq, literal?_integerChars]
  simp only [Literal.numeral?, hinteger]

end Integers

end EventFold.Json
