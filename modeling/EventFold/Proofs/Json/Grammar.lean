import EventFold.Proofs.Json.Literals
import EventFold.Proofs.Json.Strings
import EventFold.Proofs.Json.Written

/-!
# The grammar of JSON

A spelling says which texts stand for what. Texts are spelled by their parts: a scalar by itself, a bracket by its
elements between commas, a member of an object by its name and its value. Between the parts there may be blanks. An
object stands for all of its members in their order, also for several under one name.

The room of a spelling is how deep its brackets may be nested.
-/

namespace EventFold.Json

/-- Which texts stand for what. -/
abbrev Spelling (α : Type) := List Char → α → Prop

variable {α β : Type}

/-- What a text stands for, seen through a relation. -/
def Through (P : Spelling α) (R : α → β → Prop) : Spelling β := fun text b => ∃ a, P text a ∧ R a b

inductive Separated (P : Spelling α) : List Char → List α → Prop where
  | one {text : List Char} {a : α} : P text a → Separated P text [a]
  | cons {text before after more : List Char} {a : α} {as : List α} : P text a → before.all isBlank = true →
    after.all isBlank = true → Separated P more as →
    Separated P (text ++ (before ++ ',' :: (after ++ more))) (a :: as)

inductive Bracketed (opening close : Char) (P : Spelling α) : List Char → List α → Prop where
  | empty {blanks : List Char} : blanks.all isBlank = true →
    Bracketed opening close P (opening :: (blanks ++ [close])) []
  | filled {before text after : List Char} {as : List α} : before.all isBlank = true → after.all isBlank = true →
    Separated P text as → Bracketed opening close P (opening :: (before ++ (text ++ (after ++ [close])))) as

inductive SpellsMember (P : Spelling α) : List Char → String × α → Prop where
  | member {name before after text : List Char} {key : String} {a : α} : SpellsString name key →
    before.all isBlank = true → after.all isBlank = true → P text a →
    SpellsMember P (name ++ (before ++ ':' :: (after ++ text))) (key, a)

inductive SpellsScalar : List Char → Json → Prop where
  | null : SpellsScalar "null".toList .null
  | bool (b : Bool) : SpellsScalar (if b then "true" else "false").toList (.bool b)
  | number {text : List Char} {l : Literal} {n : Numeral} : SpellsLiteral text l → l.numeral? = some n →
    SpellsScalar text (.number n)
  | text {text : List Char} {t : String} : SpellsString text t → SpellsScalar text (.text t)

inductive SpellsNested (P : Spelling Json) : List Char → Json → Prop where
  | scalar {text : List Char} {j : Json} : SpellsScalar text j → SpellsNested P text j
  | array {text : List Char} {items : List Json} : Bracketed '[' ']' P text items →
    SpellsNested P text (.array items)
  | object {text : List Char} {members : List (String × Json)} :
    Bracketed '\x7b' '\x7d' (SpellsMember P) text members → SpellsNested P text (.object members)

/-- Values whose brackets are nested in the room. -/
def Spells : Nat → Spelling Json
  | 0 => SpellsScalar
  | room + 1 => SpellsNested (Spells room)

inductive Padded (P : Spelling α) : List Char → α → Prop where
  | intro {before text after : List Char} {a : α} : before.all isBlank = true → after.all isBlank = true →
    P text a → Padded P (before ++ (text ++ after)) a

/-- A text that is one value of JSON between blanks, no deeper than a reader can nest it. -/
def IsText (text : String) (j : Json) : Prop := Padded (Spells maxNesting) text.toList j

variable {P : Spelling α} {R : α → β → Prop} {text : List Char} {opening close : Char} {a : α} {as : List α}
  {j : Json} {members : List (String × Json)} {room : Nat}

theorem spells_object_iff : Spells (room + 1) text (.object members) ↔
    Bracketed '\x7b' '\x7d' (SpellsMember (Spells room)) text members := by
  constructor
  · intro h
    cases h with
    | scalar h => cases h
    | object h => exact h
  · exact SpellsNested.object

section FirstCharacters

variable {c : Char}

/-- No text begins with a blank or like the end of a bracket. -/
def Leads (P : Spelling α) (close : Char) : Prop :=
  ∀ ⦃text a⦄, P text a → ∃ c t, text = c :: t ∧ isBlank c = false ∧ c ≠ close

theorem Leads.separated (h : Leads P close) : Leads (Separated P) close := by
  intro text as hs
  cases hs with
  | one ha => exact h ha
  | cons ha _ _ _ =>
    obtain ⟨c, t, rfl, hc⟩ := h ha
    exact ⟨c, _, rfl, hc⟩

theorem Leads.length_le (h : Leads P close) (hs : Separated P text as) : as.length ≤ text.length := by
  induction hs with
  | one ha =>
    obtain ⟨c, t, rfl, -⟩ := h ha
    simp
  | cons ha _ _ _ ih =>
    simp only [List.length_cons, List.length_append]
    omega

theorem SpellsString.eq_cons {t : String} (h : SpellsString text t) : ∃ body, text = '"' :: body := by
  cases h
  exact ⟨_, rfl⟩

theorem leads_member (P : Spelling α) : Leads (SpellsMember P) '\x7d' := by
  intro text m h
  cases h with
  | member hname _ _ _ =>
    obtain ⟨body, rfl⟩ := hname.eq_cons
    exact ⟨'"', _, rfl, rfl, by decide⟩

theorem SpellsScalar.eq_cons (h : SpellsScalar text j) : ∃ c t, text = c :: t ∧ beginsPlain c = true ∧ c ≠ ']' := by
  cases h with
  | null => exact ⟨'n', _, rfl, rfl, by decide⟩
  | bool b =>
    cases b with
    | true => exact ⟨'t', _, rfl, rfl, by decide⟩
    | false => exact ⟨'f', _, rfl, rfl, by decide⟩
  | number hl _ =>
    obtain ⟨c, t, rfl, hc⟩ := exists_first_of_literal? (literal?_of_spells hl)
    exact ⟨c, t, rfl, beginsPlain_of_beginsNumeral hc, ne_of_beginsNumeral hc rfl⟩
  | text ht =>
    obtain ⟨body, rfl⟩ := ht.eq_cons
    exact ⟨'"', body, rfl, rfl, by decide⟩

theorem Bracketed.eq_cons (h : Bracketed opening close P text as) : ∃ body, text = opening :: body := by
  cases h <;> exact ⟨_, rfl⟩

theorem leads_scalar : Leads SpellsScalar ']' := by
  intro text j h
  obtain ⟨c, t, rfl, hc, hne⟩ := h.eq_cons
  exact ⟨c, t, rfl, isBlank_of_beginsPlain hc, hne⟩

theorem leads_spells (room : Nat) : Leads (Spells room) ']' := by
  intro text j h
  cases room with
  | zero => exact leads_scalar h
  | succ room =>
    cases h with
    | scalar h => exact leads_scalar h
    | array h =>
      obtain ⟨body, rfl⟩ := h.eq_cons
      exact ⟨'[', body, rfl, rfl, by decide⟩
    | object h =>
      obtain ⟨body, rfl⟩ := h.eq_cons
      exact ⟨'\x7b', body, rfl, rfl, by decide⟩

end FirstCharacters

section Relations

theorem separated_through : Separated (Through P R) = Through (Separated P) (List.Forall₂ R) := by
  funext text bs
  apply propext
  constructor
  · intro h
    induction h with
    | one hb =>
      obtain ⟨a, ha, hr⟩ := hb
      exact ⟨[a], .one ha, .cons hr .nil⟩
    | cons hb hbefore hafter _ ih =>
      obtain ⟨a, ha, hr⟩ := hb
      obtain ⟨as, has, hrs⟩ := ih
      exact ⟨a :: as, .cons ha hbefore hafter has, .cons hr hrs⟩
  · rintro ⟨as, h, hrs⟩
    induction h generalizing bs with
    | one ha =>
      cases hrs with
      | cons hr hnil =>
        cases hnil
        exact .one ⟨_, ha, hr⟩
    | cons ha hbefore hafter _ ih =>
      cases hrs with
      | cons hr hrs => exact .cons ⟨_, ha, hr⟩ hbefore hafter (ih _ hrs)

theorem bracketed_through : Bracketed opening close (Through P R) =
    Through (Bracketed opening close P) (List.Forall₂ R) := by
  funext text bs
  apply propext
  constructor
  · intro h
    cases h with
    | empty hblanks => exact ⟨[], .empty hblanks, .nil⟩
    | filled hbefore hafter h =>
      rw [separated_through] at h
      obtain ⟨as, has, hrs⟩ := h
      exact ⟨as, .filled hbefore hafter has, hrs⟩
  · rintro ⟨as, h, hrs⟩
    cases h with
    | empty hblanks =>
      cases hrs
      exact .empty hblanks
    | filled hbefore hafter has =>
      refine .filled hbefore hafter ?_
      rw [separated_through]
      exact ⟨as, has, hrs⟩

theorem spellsMember_through : SpellsMember (Through P R) = Through (SpellsMember P) (Table.SameName R) := by
  funext text n
  apply propext
  constructor
  · intro h
    cases h with
    | member hname hbefore hafter hb =>
      obtain ⟨a, ha, hr⟩ := hb
      exact ⟨(_, a), .member hname hbefore hafter ha, rfl, hr⟩
  · rintro ⟨m, h, hkey, hr⟩
    cases h with
    | member hname hbefore hafter ha =>
      obtain ⟨key, b⟩ := n
      obtain rfl := hkey
      exact .member hname hbefore hafter ⟨_, ha, hr⟩

end Relations

end EventFold.Json
