/-!
# Blanks

A blank is a character with the Unicode property White_Space: 25 code points in ten ranges.
Names, numerals and log lines are trimmed of blanks at both ends.
-/

namespace EventFold.Text

def inRanges (ranges : List (Nat × Nat)) (n : Nat) : Bool :=
  ranges.any fun r => r.1 ≤ n && n ≤ r.2

/-- The code points with the property White_Space, as closed ranges, ascending and apart. -/
def blankRanges : List (Nat × Nat) :=
  [(0x09, 0x0D), (0x20, 0x20), (0x85, 0x85), (0xA0, 0xA0), (0x1680, 0x1680), (0x2000, 0x200A),
   (0x2028, 0x2029), (0x202F, 0x202F), (0x205F, 0x205F), (0x3000, 0x3000)]

def isBlank (c : Char) : Bool := inRanges blankRanges c.toNat

def trim (s : List Char) : List Char :=
  ((s.dropWhile isBlank).reverse.dropWhile isBlank).reverse

def after? (beginning : List Char) (s : List Char) : Option (List Char) :=
  match beginning, s with
  | [], s => some s
  | _ :: _, [] => none
  | b :: bs, c :: s => if b = c then after? bs s else none

theorem eq_append_of_after? {b s r : List Char} (h : after? b s = some r) : s = b ++ r := by
  induction b generalizing s with
  | nil => simpa [after?] using h
  | cons x xs ih =>
    cases s with
    | nil => simp [after?] at h
    | cons c s =>
      simp only [after?] at h
      split at h
      · rename_i hc; simp [hc, ih h]
      · simp at h

theorem after?_append (b r : List Char) : after? b (b ++ r) = some r := by
  induction b with
  | nil => simp [after?]
  | cons x xs ih => simpa [after?] using ih

theorem after?_eq_some_iff {b s r : List Char} : after? b s = some r ↔ s = b ++ r :=
  ⟨eq_append_of_after?, fun h => h ▸ after?_append b r⟩

def dropBeginning? (beginning s : String) : Option String :=
  (after? beginning.toList s.toList).map String.ofList

end EventFold.Text
