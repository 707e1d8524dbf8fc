import EventFold.Json.Reader
import EventFold.Proofs.Json.Quoted

/-!
# Reading part after part

A reader is a function of the text before it. `Reads` says what a reader makes of a text that is followed by
more: the text is used up and the rest left, or the reader fails within the text. The parts of a bracket are
read one after the other, which is `Gathers`; it ends with what has been gathered or with the first failure.

A numeral ends where no character can continue it, so what follows a text has to stop it. Blanks, commas and
brackets do.
-/

namespace EventFold.Json

/-- Whether a character may continue a numeral. -/
def continues (c : Char) : Bool :=
  c.isDigit || c == '.' || c == 'e' || c == 'E' || c == '+' || c == '-'

/-- No numeral goes on into the text. -/
def Stops (s : List Char) : Prop := ∀ c t, s = c :: t → continues c = false

variable {c : Char} {s rest blanks : List Char}

theorem stops_nil : Stops [] := by
  intro c t h
  cases h

theorem stops_cons (h : continues c = false) (s : List Char) : Stops (c :: s) := by
  intro d t hd
  cases hd
  exact h

theorem not_continues_of_isBlank (h : isBlank c = true) : continues c = false := by
  simp only [isBlank, Bool.or_eq_true, beq_iff_eq] at h
  rcases h with ((rfl | rfl) | rfl) | rfl <;> decide

theorem Stops.blanks_append (h : Stops s) (hb : blanks.all isBlank = true) : Stops (blanks ++ s) := by
  cases blanks with
  | nil => exact h
  | cons c cs =>
    rw [List.all_cons, Bool.and_eq_true] at hb
    exact stops_cons (not_continues_of_isBlank hb.1) _

theorem Stops.ne (h : Stops rest) {t : List Char} (hc : continues c = true) : rest ≠ c :: t := by
  intro heq
  rw [h c t heq] at hc
  cases hc

namespace Reader

variable {α β : Type} {r : Reader α} {f : α → Reader β} {text : List Char} {x : Except Fault α}

section Steps

theorem bind_apply (r : Reader α) (f : α → Reader β) (s : List Char) :
    (r >>= f) s = (r s).bind fun p => f p.1 p.2 := rfl

@[simp] theorem pure_apply (a : α) (s : List Char) : (pure a : Reader α) s = .ok (a, s) := rfl

@[simp] theorem misshapen_apply (s : List Char) : (misshapen : Reader α) s = .error .misshapen := rfl

@[simp] theorem malformed_apply (s : List Char) : (malformed : Reader α) s = .error .malformed := rfl

theorem take_apply (g : List Char → Option (α × List Char)) (s : List Char) : take g s =
    match g s with
    | some p => .ok p
    | none => .error .malformed := rfl

theorem look_cons (h : isBlank c = false) (s : List Char) : look (c :: s) = .ok (c, c :: s) := by
  unfold look
  rw [List.dropWhile_cons_of_neg (by simp [h])]

theorem next_cons (h : isBlank c = false) (s : List Char) : next (c :: s) = .ok (c, s) := by
  unfold next
  rw [List.dropWhile_cons_of_neg (by simp [h])]

theorem mark_cons (h : isBlank c = false) (s : List Char) : mark c (c :: s) = .ok ((), s) := by
  rw [mark, bind_apply, next_cons h]
  simp [Except.bind]

end Steps

section Blanks

/-- Blanks before a text have no part in reading it. -/
def SkipsBlanks (r : Reader α) : Prop :=
  ∀ blanks s, blanks.all isBlank = true → r (blanks ++ s) = r s

theorem dropWhile_blanks (hb : blanks.all isBlank = true) (s : List Char) :
    (blanks ++ s).dropWhile isBlank = s.dropWhile isBlank := by
  induction blanks with
  | nil => rfl
  | cons c cs ih =>
    rw [List.all_cons, Bool.and_eq_true] at hb
    rw [List.cons_append, List.dropWhile_cons_of_pos hb.1, ih hb.2]

theorem skipsBlanks_look : SkipsBlanks look := by
  intro blanks s hb
  rw [look, dropWhile_blanks hb, look]

theorem skipsBlanks_next : SkipsBlanks next := by
  intro blanks s hb
  rw [next, dropWhile_blanks hb, next]

theorem SkipsBlanks.bind (h : SkipsBlanks r) (f : α → Reader β) : SkipsBlanks (r >>= f) := by
  intro blanks s hb
  rw [bind_apply, bind_apply, h blanks s hb]

theorem skipsBlanks_mark (c : Char) : SkipsBlanks (mark c) := skipsBlanks_next.bind _

end Blanks

section UsedUp

/-- The reader uses up the text, or fails in it, whatever text that stops comes behind. -/
def Reads (r : Reader α) (text : List Char) (x : Except Fault α) : Prop :=
  ∀ rest, Stops rest → r (text ++ rest) = x.map fun a => (a, rest)

/-- The reader uses up the text, whatever comes behind. -/
def Takes (r : Reader α) (text : List Char) (a : α) : Prop := ∀ rest, r (text ++ rest) = .ok (a, rest)

theorem Takes.reads {a : α} (h : Takes r text a) : Reads r text (.ok a) := fun rest _ => h rest

theorem Takes.bind {a : α} {more : List Char} {y : Except Fault β} (h : Takes r text a)
    (hf : Reads (f a) more y) : Reads (r >>= f) (text ++ more) y := by
  intro rest hrest
  rw [List.append_assoc, bind_apply, h]
  exact hf rest hrest

theorem takes_mark (h : isBlank c = false) : Takes (mark c) [c] () := fun rest => mark_cons h rest

theorem takes_word (w : String) : Takes (word w) w.toList () := by
  intro rest
  rw [word, take_apply, Text.after?_append]
  rfl

theorem takes_string (s : String) :
    Takes (take (string? .kept)) (s.toList.flatMap escapeChar ++ ['"']) s := by
  intro rest
  rw [List.append_assoc, List.singleton_append, take_apply, string?_quoted]

/-- A reader behind which nothing more is taken, though it may still fail. -/
theorem Reads.finish (h : Reads r text x) {g : α → Except Fault β}
    (hf : ∀ a rest, f a rest = (g a).map fun b => (b, rest)) : Reads (r >>= f) text (x.bind g) := by
  intro rest hrest
  rw [bind_apply, h rest hrest]
  cases x with
  | error fault => rfl
  | ok a => exact hf a rest

theorem Reads.map (h : Reads r text x) (g : α → β) :
    Reads (do return g (← r)) text (x.map g) := by
  have hread := h.finish (f := fun a => pure (g a)) (g := fun a => .ok (g a)) fun _ _ => rfl
  cases x <;> exact hread

theorem Reads.skip (h : Reads r text x) (hr : SkipsBlanks r) (hb : blanks.all isBlank = true) :
    Reads r (blanks ++ text) x := by
  intro rest hrest
  rw [List.append_assoc, hr blanks _ hb, h rest hrest]

theorem Reads.look {g : Char → Reader α} (hc : isBlank c = false) (h : Reads (g c) (c :: s) x) :
    Reads (do g (← look)) (c :: s) x := by
  intro rest hrest
  rw [bind_apply, List.cons_append, look_cons hc]
  exact h rest hrest

theorem reads_word {w : String} {g : Char → Reader α} {a : α} (hw : w.toList = c :: s)
    (hc : isBlank c = false) (hg : g c = do word w; return a) : Reads (do g (← look)) w.toList (.ok a) := by
  have hread : Reads (g c) w.toList (.ok a) := by
    rw [hg]
    exact (takes_word w).reads.map fun _ => a
  rw [hw] at hread ⊢
  exact hread.look hc

theorem Reads.field (h : Reads r text x) (hr : SkipsBlanks r) (hb : blanks.all isBlank = true) :
    Reads (field r) (':' :: (blanks ++ text)) x :=
  (takes_mark rfl).bind (f := fun _ => r) (h.skip hr hb)

theorem Reads.whole (h : Reads r text x) : whole r (String.ofList text) = x := by
  have hread := h [] stops_nil
  rw [List.append_nil] at hread
  change ((r (String.ofList text).toList).bind _) = _
  rw [String.toList_ofList, hread]
  cases x <;> rfl

end UsedUp

section Brackets

variable {σ : Type}

/-- The elements of a bracket that are written as `texts` are gathered one after the other. -/
inductive Gathers (element : σ → Reader σ) : σ → List (List Char) → Except Fault σ → Prop where
  | nil (gathered : σ) : Gathers element gathered [] (.ok gathered)
  | cons {gathered next : σ} {text : List Char} {texts : List (List Char)} {x : Except Fault σ} :
    Reads (element gathered) text (.ok next) → Gathers element next texts x →
    Gathers element gathered (text :: texts) x
  | fail {gathered : σ} {text : List Char} {texts : List (List Char)} {fault : Fault} :
    Reads (element gathered) text (.error fault) →
    Gathers element gathered (text :: texts) (.error fault)

def separated (blanks : List Char) (texts : List (List Char)) : List Char :=
  texts.flatMap fun text => ',' :: (blanks ++ text)

theorem length_le_separated (blanks : List Char) (texts : List (List Char)) :
    texts.length ≤ (separated blanks texts).length := by
  induction texts with
  | nil => exact Nat.zero_le _
  | cons text texts ih =>
    rw [separated, List.flatMap_cons, List.length_append, ← separated]
    simp only [List.length_cons]
    omega

variable {element : σ → Reader σ} {gathered : σ} {texts : List (List Char)} {y : Except Fault σ}
  {opening close : Char} {ending : List Char}

theorem stops_separated (hclose : continues close = false) (hending : ending.all isBlank = true)
    (blanks : List Char) (texts : List (List Char)) (rest : List Char) :
    Stops (separated blanks texts ++ (ending ++ close :: rest)) := by
  cases texts with
  | nil => exact (stops_cons hclose rest).blanks_append hending
  | cons text texts => exact stops_cons rfl _

theorem elements_of_ok {next' : σ} (h : Reads (element gathered) text (.ok next')) (hrest : Stops rest)
    (bound : Nat) : elements close element (bound + 1) gathered (text ++ rest) =
      (next rest).bind fun p =>
        (if p.1 == ',' then elements close element bound next'
          else if p.1 == close then pure next'
          else malformed : Reader σ) p.2 := by
  rw [elements, bind_apply, h rest hrest]
  rfl

theorem elements_of_error {fault : Fault} (h : Reads (element gathered) text (.error fault))
    (hrest : Stops rest) (bound : Nat) :
    elements close element (bound + 1) gathered (text ++ rest) = .error fault := by
  rw [elements, bind_apply, h rest hrest]
  rfl

theorem skipsBlanks_elements (hskip : ∀ gathered, SkipsBlanks (element gathered)) :
    ∀ bound gathered, SkipsBlanks (elements close element bound gathered)
  | 0, _ => fun _ _ _ => rfl
  | _ + 1, gathered => (hskip gathered).bind _

structure Closes (close : Char) : Prop where
  comma : close ≠ ','
  blank : isBlank close = false
  stops : continues close = false

/-- The elements up to the closing bracket, by induction on those behind the first one. -/
theorem Gathers.elements (hclose : Closes close) (hskip : ∀ gathered, SkipsBlanks (element gathered))
    (hb : blanks.all isBlank = true) (hending : ending.all isBlank = true)
    (h : Gathers element gathered (text :: texts) y) {bound : Nat} (hbound : texts.length < bound)
    (rest : List Char) : Reader.elements close element bound gathered
        (text ++ (separated blanks texts ++ (ending ++ close :: rest))) = y.map fun a => (a, rest) := by
  induction texts generalizing text gathered bound with
  | nil =>
    obtain ⟨bound, rfl⟩ := Nat.exists_eq_succ_of_ne_zero (Nat.ne_zero_of_lt hbound)
    have hstop := stops_separated hclose.stops hending blanks [] rest
    cases h with
    | fail hread => rw [elements_of_error hread hstop]; rfl
    | cons hread hrest =>
      cases hrest
      rw [elements_of_ok hread hstop]
      change (next (ending ++ close :: rest)).bind _ = _
      rw [skipsBlanks_next _ _ hending, next_cons hclose.blank]
      simp [Except.bind, Except.map, hclose.comma]
  | cons text' texts ih =>
    obtain ⟨bound, rfl⟩ := Nat.exists_eq_succ_of_ne_zero (Nat.ne_zero_of_lt hbound)
    have hstop := stops_separated hclose.stops hending blanks (text' :: texts) rest
    cases h with
    | fail hread => rw [elements_of_error hread hstop]; rfl
    | cons hread hrest =>
      rw [elements_of_ok hread hstop]
      have hnext : separated blanks (text' :: texts) ++ (ending ++ close :: rest) =
          ',' :: (blanks ++ (text' ++ (separated blanks texts ++ (ending ++ close :: rest)))) := by
        simp [separated]
      rw [hnext, next_cons rfl]
      exact (skipsBlanks_elements hskip bound _ _ _ hb).trans (ih hrest (Nat.lt_of_succ_lt_succ hbound))

/-- A bracket that is not empty. Its first text must not begin like its end. -/
theorem Gathers.bracket (hopening : isBlank opening = false) (hclose : Closes close)
    (hskip : ∀ gathered, SkipsBlanks (element gathered)) (hb : blanks.all isBlank = true)
    (hending : ending.all isBlank = true) {first : Char} {body : List Char}
    (h : Gathers element gathered ((first :: body) :: texts) y) (hfirst : isBlank first = false)
    (hne : first ≠ close) (rest : List Char) : Reader.bracket opening close element gathered
        (opening :: (blanks ++ (first :: body ++ (separated blanks texts ++ (ending ++ close :: rest))))) =
      y.map fun a => (a, rest) := by
  have hlook : look (blanks ++ (first :: body ++ (separated blanks texts ++ (ending ++ close :: rest)))) =
      .ok (first, first :: body ++ (separated blanks texts ++ (ending ++ close :: rest))) := by
    rw [skipsBlanks_look _ _ hb, List.cons_append, look_cons hfirst]
  rw [Reader.bracket, bind_apply, mark_cons hopening]
  simp only [Except.bind]
  rw [bind_apply, hlook]
  simp only [Except.bind]
  rw [if_neg (by simpa using hne)]
  refine h.elements hclose hskip hb hending ?_ rest
  have hlen := length_le_separated blanks texts
  simp only [List.length_append, List.length_cons]
  omega

theorem bracket_empty (hopening : isBlank opening = false) (hclose : Closes close) (rest : List Char) :
    Reader.bracket opening close element gathered (opening :: close :: rest) = .ok (gathered, rest) := by
  rw [Reader.bracket, bind_apply, mark_cons hopening]
  simp only [Except.bind]
  rw [bind_apply, look_cons hclose.blank]
  simp [Except.bind, bind_apply, mark_cons hclose.blank]

end Brackets

end Reader

end EventFold.Json
