import EventFold.Form
import EventFold.Number.Layout
import Mathlib.Data.List.Basic

/-!
# Texts on one line

A text is on one line if it holds no line break. That is so of everything that is quoted, counted or laid out as a
number, and so of values and forms as messages show them.
-/

namespace EventFold

namespace Text

variable {s t separator : String} {ss : List String}

/-- The text holds no line break. -/
def IsOneLine (s : String) : Prop := '\n' ∉ s.toList

instance decidableIsOneLine (s : String) : Decidable (IsOneLine s) :=
  inferInstanceAs (Decidable ('\n' ∉ s.toList))

/-- The text ends in a line break and holds no other. -/
def IsLine (s : String) : Prop := ∃ t, IsOneLine t ∧ s = t ++ "\n"

@[simp] theorem isOneLine_append : IsOneLine (s ++ t) ↔ IsOneLine s ∧ IsOneLine t := by
  rw [IsOneLine, String.toList_append, List.mem_append, not_or]
  rfl

@[simp] theorem isOneLine_ofList {cs : List Char} : IsOneLine (String.ofList cs) ↔ '\n' ∉ cs := by
  rw [IsOneLine, String.toList_ofList]

@[simp] theorem isOneLine_empty : IsOneLine "" := by decide

theorem isLine_append_newline : IsLine (s ++ "\n") ↔ IsOneLine s := by
  constructor
  · rintro ⟨t, ht, heq⟩
    have hlist := congrArg String.toList heq
    rw [String.toList_append, String.toList_append] at hlist
    rwa [String.toList_inj.mp (List.append_cancel_right hlist)]
  · intro h
    exact ⟨s, h, rfl⟩

@[simp] theorem isOneLine_quote (s : String) : IsOneLine (quote s) := newline_not_mem_quote s

theorem newline_not_mem_digits (n : Nat) : '\n' ∉ Nat.toDigits 10 n := by
  intro h
  have hdigit : ('\n').isDigit = true := Nat.isDigit_of_mem_toDigits (by decide) (by decide) h
  exact absurd hdigit (by decide)

@[simp] theorem isOneLine_toString (n : Nat) : IsOneLine (toString n) := by
  rw [IsOneLine, Nat.toString_eq_repr, Nat.toList_repr]
  exact newline_not_mem_digits n

theorem isOneLine_intercalate (hseparator : IsOneLine separator) :
    IsOneLine (separator.intercalate ss) ↔ ∀ s ∈ ss, IsOneLine s := by
  induction ss with
  | nil =>
    rw [String.intercalate_nil]
    exact iff_of_true (by decide) (List.forall_mem_nil _)
  | cons s rest ih =>
    cases rest with
    | nil => rw [String.intercalate_singleton, List.forall_mem_singleton]
    | cons t rest =>
      rw [String.intercalate_cons_cons, isOneLine_append, isOneLine_append, ih, and_iff_left hseparator]
      exact List.forall_mem_cons.symm

end Text

namespace Decimal

variable {c : Char} {digits : List Char}

theorem mem_of_mem_ofDigits {exponent : Int} (h : c ∈ (ofDigits digits exponent).digits) : c ∈ digits := by
  simp only [ofDigits] at h
  split at h
  · cases h
  · have hkept := (List.dropWhile_sublist _).subset (List.mem_reverse.mp h)
    exact (List.dropWhile_sublist _).subset (List.mem_reverse.mp hkept)

theorem newline_not_mem_ofDigits (n : Nat) (exponent : Int) :
    '\n' ∉ (ofDigits (Nat.toDigits 10 n) exponent).digits :=
  fun h => Text.newline_not_mem_digits n (mem_of_mem_ofDigits h)

end Decimal

namespace Number

variable {tie : Decimal.Tie} {a : Magnitude} {k : Int} {d : Decimal}

theorem newline_not_mem_decimalOf? (h : decimalOf? tie a k = some d) : '\n' ∉ d.digits := by
  have hdigits := Decimal.newline_not_mem_ofDigits
  simp only [decimalOf?] at h
  split at h
  · cases h
  · exact Option.some.inj h ▸ hdigits _ k
  · exact Option.some.inj h ▸ hdigits _ k
  · split at h
    · exact Option.some.inj h ▸ hdigits _ k
    · exact Option.some.inj h ▸ hdigits _ k
    · exact Option.some.inj h ▸ hdigits _ k
    · rw [← Option.some.inj h]
      split <;> exact hdigits _ k

theorem newline_not_mem_shortest (tie : Decimal.Tie) (a : Magnitude) : '\n' ∉ (shortest tie a).digits := by
  simp only [shortest]
  split
  · exact List.not_mem_nil
  · cases hfound : List.findSome? (decimalOf? tie a) _ with
    | none => exact Decimal.newline_not_mem_ofDigits _ _
    | some d =>
      obtain ⟨k, -, hk⟩ := List.exists_of_findSome?_eq_some hfound
      exact newline_not_mem_decimalOf? hk

end Number

namespace Layout

variable {l : Layout} {d : Decimal}

theorem newline_not_mem_positionalText (pointZero : Bool) (h : '\n' ∉ d.digits) :
    '\n' ∉ positionalText pointZero d := by
  have htake : ∀ k, '\n' ∉ d.digits.take k := fun k hmem => h (List.mem_of_mem_take hmem)
  have hdrop : ∀ k, '\n' ∉ d.digits.drop k := fun k hmem => h (List.mem_of_mem_drop hmem)
  simp only [positionalText]
  split_ifs <;> simp [h, htake, hdrop]

theorem newline_not_mem_exponentText (plus : Bool) (e : Int) : '\n' ∉ exponentText plus e := by
  have hdigits := Text.newline_not_mem_digits e.natAbs
  unfold exponentText
  split_ifs <;> simp [hdigits]

theorem newline_not_mem_scientificText (plus : Bool) (h : '\n' ∉ d.digits) : '\n' ∉ scientificText plus d := by
  have hexponent := newline_not_mem_exponentText plus
  simp only [scientificText]
  split
  · decide
  · rename_i digit hd
    rw [hd] at h
    simp_all
  · rename_i digit rest _ hd
    rw [hd] at h
    simp_all

theorem newline_not_mem_render (l : Layout) (x : Number) : '\n' ∉ l.render x := by
  unfold render
  split
  · decide
  · split <;> decide
  · rename_i negative a _
    have hdigits := Number.newline_not_mem_shortest l.tie a
    have htext : '\n' ∉ l.decimalText (Number.shortest l.tie a) := by
      unfold decimalText
      split
      · exact newline_not_mem_positionalText _ hdigits
      · exact newline_not_mem_scientificText _ hdigits
    split <;> simp [htext]

end Layout

open Text

@[simp] theorem Value.isOneLine_display_number (x : Number) : IsOneLine (Value.number x).display := by
  rw [display, isOneLine_ofList]
  exact Layout.newline_not_mem_render _ x

@[simp] theorem Value.isOneLine_shown (v : Value) : IsOneLine v.shown := by
  cases v with
  | null => decide
  | bool b => cases b <;> decide
  | number x =>
    have hrender := Layout.newline_not_mem_render Layout.shown x
    simp only [shown, isOneLine_append, isOneLine_ofList]
    exact ⟨⟨by decide, hrender⟩, by decide⟩
  | text s =>
    simp only [shown, isOneLine_append, isOneLine_quote]
    exact ⟨⟨by decide, trivial⟩, by decide⟩

namespace Form

mutual

@[simp] theorem isOneLine_display : ∀ f : Form, IsOneLine f.display
  | atom (.text s) => isOneLine_quote s
  | atom .null => by decide
  | atom (.bool true) => by decide
  | atom (.bool false) => by decide
  | atom (.number x) => Value.isOneLine_display_number x
  | list items => by
    rw [display, isOneLine_append, isOneLine_append]
    exact ⟨⟨by decide, isOneLine_displayItems items⟩, by decide⟩

theorem isOneLine_displayItems : ∀ items : List Form, IsOneLine (displayItems items)
  | [] => by decide
  | [f] => isOneLine_display f
  | f :: g :: rest => by
    rw [displayItems, isOneLine_append, isOneLine_append]
    · exact ⟨⟨isOneLine_display f, by decide⟩, isOneLine_displayItems (g :: rest)⟩
    · simp

end

end Form

end EventFold
