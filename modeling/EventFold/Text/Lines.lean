/-!
# Lines

A line ends in a line feed, which does not belong to it; the last one may do without. Lines are cut from
bytes, before it is known whether they are text.
-/

namespace EventFold.Text

def lineFeed : UInt8 := 10

/-- The lines of bytes, given the beginning of the first and the lines before it, both from the back. -/
def linesFrom (line : List UInt8) (before : List (List UInt8)) : List UInt8 → List (List UInt8)
  | [] => if line.isEmpty then before.reverse else (line.reverse :: before).reverse
  | b :: rest =>
    if b = lineFeed then linesFrom [] (line.reverse :: before) rest
    else linesFrom (b :: line) before rest

def lines (bytes : List UInt8) : List (List UInt8) := linesFrom [] [] bytes

def ofBytes? (bytes : List UInt8) : Option String := String.fromUTF8? ⟨bytes.toArray⟩

theorem linesFrom_eq (line : List UInt8) (before : List (List UInt8)) (bytes : List UInt8) :
    linesFrom line before bytes = before.reverse ++ linesFrom line [] bytes := by
  induction bytes generalizing line before with
  | nil => unfold linesFrom; split <;> simp
  | cons b rest ih =>
    unfold linesFrom
    split
    · rw [ih [] (line.reverse :: before), ih [] [line.reverse]]; simp
    · rw [ih]

/-- Lines that end before another text begins are lines of both together. -/
theorem lines_append (bytes more : List UInt8) :
    lines (bytes ++ lineFeed :: more) = lines (bytes ++ [lineFeed]) ++ lines more := by
  suffices h : ∀ line, linesFrom line [] (bytes ++ lineFeed :: more) =
      linesFrom line [] (bytes ++ [lineFeed]) ++ lines more from h []
  induction bytes with
  | nil =>
    intro line
    simp only [List.nil_append, linesFrom, if_true]
    rw [linesFrom_eq]
    simp [lines]
  | cons b rest ih =>
    intro line
    simp only [List.cons_append, linesFrom]
    split
    · rw [linesFrom_eq, linesFrom_eq _ _ (rest ++ [lineFeed]), ih]; simp
    · exact ih _

end EventFold.Text
