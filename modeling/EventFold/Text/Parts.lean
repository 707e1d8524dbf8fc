/-!
# Parts

The parts of a text are what stands before, between and behind its marks, so a text without marks has one
part. The marks put between the parts give the text back, and no part holds a mark.
-/

namespace EventFold.Text

def parts (mark : Char) : List Char → List (List Char)
  | [] => [[]]
  | c :: s =>
    if c = mark then [] :: parts mark s
    else
      match parts mark s with
      | part :: rest => (c :: part) :: rest
      | [] => [[c]]

def stringParts (mark : Char) (s : String) : List String := (parts mark s.toList).map String.ofList

theorem parts_ne_nil (mark : Char) (s : List Char) : parts mark s ≠ [] := by
  cases s with
  | nil => simp [parts]
  | cons c s =>
    unfold parts
    split
    · simp
    · split <;> simp

theorem intercalate_parts (mark : Char) (s : List Char) : [mark].intercalate (parts mark s) = s := by
  induction s with
  | nil => rfl
  | cons c s ih =>
    unfold parts
    obtain ⟨part, rest, h⟩ := List.exists_cons_of_ne_nil (parts_ne_nil mark s)
    rw [h] at ih
    by_cases hc : c = mark
    · rw [if_pos hc, h, List.intercalate_cons_cons, ih, hc]; rfl
    · rw [if_neg hc, h]
      cases rest <;> simp_all [List.intercalate_cons_cons]

theorem mark_not_mem_parts {mark : Char} {s part : List Char} (h : part ∈ parts mark s) : mark ∉ part := by
  induction s generalizing part with
  | nil => simp_all [parts]
  | cons c s ih =>
    unfold parts at h
    split at h
    · rcases List.mem_cons.1 h with rfl | h
      · exact List.not_mem_nil
      · exact ih h
    · rename_i hc
      obtain ⟨first, rest, hp⟩ := List.exists_cons_of_ne_nil (parts_ne_nil mark s)
      rw [hp] at h ih
      rcases List.mem_cons.1 h with rfl | h
      · have := ih List.mem_cons_self
        simp [Ne.symm hc, this]
      · exact ih (List.mem_cons_of_mem _ h)

end EventFold.Text
