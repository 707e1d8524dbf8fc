/-!
# Places counted in bytes

A place in a text is how many bytes of UTF-8 stand before it. A text can be cut at a place between two
characters and at its ends; every way to divide a text is the cut at one place.
-/

namespace EventFold.Text

def byteCount : List Char → Nat
  | [] => 0
  | c :: s => c.utf8Size + byteCount s

/-- What stands before a place and behind it; nothing if the place lies within a character or beyond the
end. -/
def cutAt? : Nat → List Char → Option (List Char × List Char)
  | 0, s => some ([], s)
  | _ + 1, [] => none
  | place + 1, c :: s =>
    if c.utf8Size ≤ place + 1 then
      (cutAt? (place + 1 - c.utf8Size) s).map fun (before, behind) => (c :: before, behind)
    else none

def between? (start stop : Nat) (s : List Char) : Option (List Char) := do
  let (_, behind) ← cutAt? start s
  let (piece, _) ← cutAt? (stop - start) behind
  return piece

theorem cutAt?_append (a b : List Char) : cutAt? (byteCount a) (a ++ b) = some (a, b) := by
  induction a with
  | nil => simp [byteCount, cutAt?]
  | cons c a ih =>
    obtain ⟨n, hn⟩ : ∃ n, byteCount (c :: a) = n + 1 :=
      Nat.exists_eq_succ_of_ne_zero (by have := c.utf8Size_pos; simp only [byteCount]; omega)
    have hc : n + 1 - c.utf8Size = byteCount a := by simp only [byteCount] at hn; omega
    have hle : c.utf8Size ≤ n + 1 := by simp only [byteCount] at hn; omega
    rw [hn, List.cons_append, cutAt?, if_pos hle, hc, ih, Option.map_some]

/-- A cut divides the text, and its place is the count of the bytes before it. -/
theorem of_cutAt?_eq_some {place : Nat} {s a b : List Char} (h : cutAt? place s = some (a, b)) :
    s = a ++ b ∧ byteCount a = place := by
  induction s generalizing place a with
  | nil =>
    cases place with
    | zero => simp_all [cutAt?, byteCount]
    | succ place => simp [cutAt?] at h
  | cons c s ih =>
    cases place with
    | zero => simp_all [cutAt?, byteCount]
    | succ place =>
      rw [cutAt?] at h
      split at h
      · rename_i hle
        obtain ⟨⟨x, y⟩, hxy, h⟩ := Option.map_eq_some_iff.1 h
        obtain ⟨rfl, rfl⟩ := Prod.mk.inj h
        obtain ⟨rfl, hx⟩ := ih hxy
        exact ⟨rfl, by simp only [byteCount]; omega⟩
      · simp at h

theorem cutAt?_eq_some_iff {place : Nat} {s a b : List Char} :
    cutAt? place s = some (a, b) ↔ s = a ++ b ∧ byteCount a = place :=
  ⟨of_cutAt?_eq_some, fun ⟨hs, hp⟩ => hs ▸ hp ▸ cutAt?_append a b⟩

end EventFold.Text
