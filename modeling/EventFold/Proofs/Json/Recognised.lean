import EventFold.Proofs.Json.Grammar
import EventFold.Proofs.Json.Trees

/-!
# Readers recognise what is spelled

A reader recognises a spelling if it takes the texts that are spelled, and whatever it takes is spelled, but for
blanks before it. The readers of parts carry this over to the readers of brackets, and so, by induction on the room,
to the reader of values: a tree is read exactly from the texts that stand for it.
-/

namespace EventFold.Json

namespace Reader

variable {α β σ : Type} {P : Spelling α} {Q : Spelling β} {r : Reader α} {f : α → Reader β} {s rest : List Char}
  {a : α} {c : Char}

section Taken

/-- Whatever the reader takes is spelled, but for blanks before it. -/
def Sound (r : Reader α) (P : Spelling α) : Prop :=
  ∀ ⦃s a rest⦄, r s = .ok (a, rest) →
    ∃ blanks text, s = blanks ++ (text ++ rest) ∧ blanks.all isBlank = true ∧ P text a

structure Recognises (r : Reader α) (P : Spelling α) : Prop where
  skips : SkipsBlanks r
  sound : Sound r P
  complete : ∀ ⦃text a⦄, P text a → Reads r text (.ok a)

theorem exists_blanks_of_dropWhile (s : List Char) :
    ∃ blanks, s = blanks ++ s.dropWhile isBlank ∧ blanks.all isBlank = true :=
  ⟨s.takeWhile isBlank, List.takeWhile_append_dropWhile.symm, List.all_takeWhile⟩

theorem isBlank_of_dropWhile_eq_cons (h : s.dropWhile isBlank = c :: rest) : isBlank c = false := by
  have hhead := List.head_dropWhile_not isBlank (l := s) (by simp [h])
  simpa [h] using hhead

theorem exists_of_look (h : look s = .ok (c, rest)) :
    ∃ blanks t, s = blanks ++ rest ∧ blanks.all isBlank = true ∧ rest = c :: t ∧ isBlank c = false := by
  obtain ⟨blanks, hs, hblanks⟩ := exists_blanks_of_dropWhile s
  unfold look at h
  split at h
  · cases h
  · rename_i d t hd
    cases h
    exact ⟨blanks, t, hd ▸ hs, hblanks, rfl, isBlank_of_dropWhile_eq_cons hd⟩

theorem exists_of_next (h : next s = .ok (c, rest)) :
    ∃ blanks, s = blanks ++ c :: rest ∧ blanks.all isBlank = true := by
  obtain ⟨blanks, hs, hblanks⟩ := exists_blanks_of_dropWhile s
  unfold next at h
  split at h
  · cases h
  · rename_i d t hd
    cases h
    exact ⟨blanks, hd ▸ hs, hblanks⟩

theorem exists_of_mark {u : Unit} (h : mark c s = .ok (u, rest)) :
    ∃ blanks, s = blanks ++ c :: rest ∧ blanks.all isBlank = true := by
  obtain ⟨⟨d, s'⟩, hnext, h⟩ := bind_eq_ok_iff.mp h
  dsimp only at h
  split at h
  · cases h
  · rename_i hne
    cases h
    obtain rfl : d = c := by simpa using hne
    exact exists_of_next hnext

theorem take_eq_ok_iff {g : List Char → Option (α × List Char)} : take g s = .ok (a, rest) ↔ g s = some (a, rest) := by
  rw [take_apply]
  split <;> simp_all

end Taken

section Parts

theorem Recognises.congr {P' : Spelling α} (h : Recognises r P) (hiff : ∀ text a, P text a ↔ P' text a) :
    Recognises r P' := by
  have heq : P = P' := by
    funext text a
    exact propext (hiff text a)
  exact heq ▸ h

theorem Sound.look {g : Char → Reader α} (h : ∀ c, Sound (g c) P) : Sound (do g (← look)) P := by
  intro s a rest hread
  obtain ⟨⟨c, s'⟩, hlook, hrest⟩ := bind_eq_ok_iff.mp hread
  obtain ⟨blanks, t, rfl, hblanks, -, -⟩ := exists_of_look hlook
  obtain ⟨more, text, rfl, hmore, htext⟩ := h c hrest
  exact ⟨blanks ++ more, text, by simp, by simp [List.all_append, hblanks, hmore], htext⟩

theorem Sound.mono {P' : Spelling α} (h : Sound r P) (himp : ∀ ⦃text a⦄, P text a → P' text a) : Sound r P' := by
  intro s a rest hread
  obtain ⟨blanks, text, hs, hblanks, htext⟩ := h hread
  exact ⟨blanks, text, hs, hblanks, himp htext⟩

/-- What is read and then put to a partial function, which takes nothing more. -/
theorem Recognises.through {R : α → β → Prop} (h : Recognises r P)
    (hf : ∀ a b s rest, f a s = .ok (b, rest) ↔ R a b ∧ s = rest) : Recognises (r >>= f) (Through P R) where
  skips := h.skips.bind f
  sound := by
    intro s b rest hread
    obtain ⟨⟨a, s'⟩, hr, hread⟩ := bind_eq_ok_iff.mp hread
    obtain ⟨hab, rfl⟩ := (hf a b s' rest).mp hread
    obtain ⟨blanks, text, hs, hblanks, htext⟩ := h.sound hr
    exact ⟨blanks, text, hs, hblanks, a, htext, hab⟩
  complete := by
    rintro text b ⟨a, htext, hab⟩ rest hrest
    rw [bind_apply, h.complete htext rest hrest]
    exact (hf a b rest rest).mpr ⟨hab, rfl⟩

theorem Recognises.map (h : Recognises r P) (g : α → β) :
    Recognises (do return g (← r)) (Through P fun a b => g a = b) := by
  refine h.through fun a b s rest => ?_
  simp [pure_apply]

end Parts

section Elements

variable {element : σ → Reader σ} {step : σ → α → σ} {opening close : Char} {start gathered gathered' : σ}
  {text ending : List Char} {as : List α} {bound : Nat}

/-- The elements that are gathered are spelled between commas, by induction on the bound of their number. -/
theorem separated_of_elements (h : ∀ gathered, Sound (element gathered) (Through P (step gathered · = ·)))
    (hread : elements close element bound gathered s = .ok (gathered', rest)) :
    ∃ blanks text ending as, s = blanks ++ (text ++ (ending ++ close :: rest)) ∧ blanks.all isBlank = true ∧
      ending.all isBlank = true ∧ Separated P text as ∧ as.foldl step gathered = gathered' := by
  induction bound generalizing gathered s with
  | zero => cases hread
  | succ bound ih =>
    obtain ⟨⟨gathered₁, s₁⟩, hfirst, hmore⟩ := bind_eq_ok_iff.mp hread
    obtain ⟨⟨c, s₂⟩, hnext, hrest⟩ := bind_eq_ok_iff.mp hmore
    obtain ⟨blanks, text, rfl, hblanks, a, ha, rfl⟩ := h gathered hfirst
    obtain ⟨before, rfl, hbefore⟩ := exists_of_next hnext
    dsimp only at hrest
    split at hrest
    · rename_i hcomma
      obtain rfl : c = ',' := by simpa using hcomma
      obtain ⟨after, more, ending, as, rfl, hafter, hending, has, hfold⟩ := ih hrest
      exact ⟨blanks, _, ending, a :: as, by simp, hblanks, hending, .cons ha hbefore hafter has, hfold⟩
    · split at hrest
      · rename_i hclose
        obtain rfl : c = close := by simpa using hclose
        cases hrest
        exact ⟨blanks, text, before, [a], rfl, hblanks, hbefore, .one ha, rfl⟩
      · cases hrest

/-- Elements that are spelled between commas are gathered, by induction on how they are spelled. -/
theorem elements_of_separated (hclose : Closes close)
    (h : ∀ gathered, Recognises (element gathered) (Through P (step gathered · = ·)))
    (hs : Separated P text as) (hbound : as.length ≤ bound) (hending : ending.all isBlank = true)
    (rest : List Char) : elements close element bound gathered (text ++ (ending ++ close :: rest)) =
      .ok (as.foldl step gathered, rest) := by
  have hskip : ∀ gathered, SkipsBlanks (element gathered) := fun gathered => (h gathered).skips
  induction hs generalizing bound gathered with
  | @one text a ha =>
    obtain ⟨bound, rfl⟩ := Nat.exists_eq_succ_of_ne_zero (Nat.ne_zero_of_lt hbound)
    have hstop : Stops (ending ++ close :: rest) := (stops_cons hclose.stops rest).blanks_append hending
    rw [elements_of_ok ((h gathered).complete ⟨a, ha, rfl⟩) hstop, skipsBlanks_next _ _ hending,
      next_cons hclose.blank]
    simp [Except.bind, hclose.comma]
  | @cons text before after more a as ha hbefore hafter _ ih =>
    obtain ⟨bound, rfl⟩ := Nat.exists_eq_succ_of_ne_zero (Nat.ne_zero_of_lt hbound)
    have hstop : Stops (before ++ ',' :: (after ++ (more ++ (ending ++ close :: rest)))) :=
      (stops_cons rfl _).blanks_append hbefore
    have htext : text ++ (before ++ ',' :: (after ++ more)) ++ (ending ++ close :: rest) =
        text ++ (before ++ ',' :: (after ++ (more ++ (ending ++ close :: rest)))) := by
      simp
    rw [htext, elements_of_ok ((h gathered).complete ⟨a, ha, rfl⟩) hstop, skipsBlanks_next _ _ hbefore,
      next_cons rfl]
    exact (skipsBlanks_elements hskip bound _ _ _ hafter).trans (ih (Nat.le_of_succ_le_succ hbound))

theorem recognises_bracket (hopening : isBlank opening = false) (hclose : Closes close) (hleads : Leads P close)
    (h : ∀ gathered, Recognises (element gathered) (Through P (step gathered · = ·))) :
    Recognises (bracket opening close element start)
      (Through (Bracketed opening close P) fun as gathered => as.foldl step start = gathered) where
  skips := (skipsBlanks_mark opening).bind _
  sound := by
    intro s gathered rest hread
    obtain ⟨⟨_, s₁⟩, hopen, hinner⟩ := bind_eq_ok_iff.mp hread
    obtain ⟨⟨c, s₂⟩, hlook, hrest⟩ := bind_eq_ok_iff.mp hinner
    obtain ⟨blanks, rfl, hblanks⟩ := exists_of_mark hopen
    obtain ⟨before, t, rfl, hbefore, -, -⟩ := exists_of_look hlook
    dsimp only at hrest
    split at hrest
    · obtain ⟨⟨_, s₃⟩, hmark, heq⟩ := bind_eq_ok_iff.mp hrest
      cases heq
      obtain ⟨more, rfl, hmore⟩ := exists_of_mark hmark
      exact ⟨blanks, opening :: (before ++ more ++ [close]), by simp, hblanks, [],
        .empty (by simp [List.all_append, hbefore, hmore]), rfl⟩
    · obtain ⟨more, text, ending, as, rfl, hmore, hending, has, hfold⟩ :=
        separated_of_elements (fun gathered => (h gathered).sound) hrest
      exact ⟨blanks, opening :: (before ++ more ++ (text ++ (ending ++ [close]))), by simp, hblanks, as,
        .filled (by simp [List.all_append, hbefore, hmore]) hending has, hfold⟩
  complete := by
    rintro text gathered ⟨as, hbracket, rfl⟩ rest -
    cases hbracket with
    | @empty blanks hblanks =>
      have hlook : look (blanks ++ close :: rest) = .ok (close, close :: rest) := by
        rw [skipsBlanks_look _ _ hblanks, look_cons hclose.blank]
      rw [bracket, bind_apply, List.cons_append, mark_cons hopening]
      simp only [Except.bind]
      rw [bind_apply, List.append_assoc, List.singleton_append, hlook]
      simp [Except.bind, Except.map, bind_apply, mark_cons hclose.blank]
    | @filled before text ending _ hbefore hending has =>
      obtain ⟨first, body, hfirst, hblank, hne⟩ := hleads.separated has
      have hlook : look (before ++ (text ++ (ending ++ close :: rest))) =
          .ok (first, text ++ (ending ++ close :: rest)) := by
        rw [skipsBlanks_look _ _ hbefore, hfirst, List.cons_append, look_cons hblank]
      have htext : opening :: (before ++ (text ++ (ending ++ [close]))) ++ rest =
          opening :: (before ++ (text ++ (ending ++ close :: rest))) := by
        simp
      have hlength : as.length ≤ (text ++ (ending ++ close :: rest)).length := by
        have hle := hleads.length_le has
        rw [List.length_append]
        omega
      rw [htext, bracket, bind_apply, mark_cons hopening]
      simp only [Except.bind]
      rw [bind_apply, hlook]
      simp only [Except.bind]
      rw [if_neg (by simpa using hne)]
      exact elements_of_separated hclose h has hlength hending rest

end Elements

theorem recognises_array {item : Reader α} (h : Recognises item P) (hleads : Leads P ']') :
    Recognises (array item) (Bracketed '[' ']' P) := by
  have hgathered : Recognises (bracket '[' ']' (fun done => do return (← item) :: done) [])
      (Through (Bracketed '[' ']' P) fun as done => as.foldl (fun done a => a :: done) [] = done) :=
    recognises_bracket rfl closes_bracket hleads fun done => h.map (· :: done)
  refine (hgathered.map List.reverse).congr fun text as => ⟨?_, fun htext => ?_⟩
  · rintro ⟨done, ⟨as', htext, rfl⟩, rfl⟩
    simpa using htext
  · exact ⟨as.reverse, ⟨as, htext, by simp⟩, List.reverse_reverse as⟩

section Members

variable {item : Reader α} (step : σ → String × α → σ)

theorem takes_spelled {name : List Char} {key : String} (h : SpellsString ('"' :: name) key) :
    Takes (take (string? .kept)) name key := by
  cases h with
  | quoted htext hs =>
    intro rest
    rw [List.append_assoc, List.singleton_append, take_apply, string?_of_spells htext hs]

theorem recognises_member (h : Recognises item P) (gathered : σ) :
    Recognises (memberElement (fun gathered key => do return step gathered (key, ← field item)) gathered)
      (Through (SpellsMember P) (step gathered · = ·)) where
  skips := skipsBlanks_memberElement gathered
  sound := by
    intro s gathered' rest hread
    obtain ⟨⟨_, s₁⟩, hquote, hname⟩ := bind_eq_ok_iff.mp hread
    obtain ⟨⟨key, s₂⟩, hkey, hfield⟩ := bind_eq_ok_iff.mp hname
    obtain ⟨⟨a, s₃⟩, hvalue, heq⟩ := bind_eq_ok_iff.mp hfield
    obtain ⟨⟨_, s₄⟩, hcolon, hitem⟩ := bind_eq_ok_iff.mp hvalue
    cases heq
    obtain ⟨blanks, rfl, hblanks⟩ := exists_of_mark hquote
    obtain ⟨name, rfl, hspelled⟩ := spells_of_string? (take_eq_ok_iff.mp hkey)
    obtain ⟨before, rfl, hbefore⟩ := exists_of_mark hcolon
    obtain ⟨after, text, rfl, hafter, ha⟩ := h.sound hitem
    exact ⟨blanks, _, by simp, hblanks, (key, a), .member hspelled hbefore hafter ha, rfl⟩
  complete := by
    rintro text gathered' ⟨m, hm, rfl⟩
    cases hm with
    | @member name before after text key a hspelled hbefore hafter ha =>
      obtain ⟨body, rfl⟩ := hspelled.eq_cons
      have hfield : Reads (field item) (before ++ ':' :: (after ++ text)) (.ok a) :=
        ((h.complete ha).field h.skips hafter).skip ((skipsBlanks_mark ':').bind _) hbefore
      have hkey := (takes_spelled hspelled).bind
        (f := fun key => do return step gathered (key, ← field item)) (hfield.map fun a => step gathered (key, a))
      exact (takes_mark (c := '"') rfl).bind (f := fun _ => do
        return step gathered (← take (string? .kept), ← field item)) hkey

theorem recognises_members (start : σ) (h : Recognises item P) :
    Recognises (members (fun gathered key => do return step gathered (key, ← field item)) start)
      (Through (Bracketed '\x7b' '\x7d' (SpellsMember P)) fun ms gathered => ms.foldl step start = gathered) :=
  recognises_bracket rfl closes_brace (leads_member P) (recognises_member step h)

end Members

section Values

theorem sound_word {j : Json} {w : String} (h : SpellsScalar w.toList j) :
    Sound (do word w; return j) SpellsScalar := by
  intro s j' rest hread
  obtain ⟨⟨_, s₁⟩, hword, heq⟩ := bind_eq_ok_iff.mp hread
  cases heq
  obtain ⟨s', hs, heq⟩ := Option.map_eq_some_iff.mp (take_eq_ok_iff.mp hword)
  cases heq
  have htext := Text.after?_eq_some_iff.mp hs
  exact ⟨[], w.toList, htext, rfl, h⟩

theorem exists_of_numeral {n : Numeral} (h : numeral s = .ok (n, rest)) :
    ∃ text l, s = text ++ rest ∧ SpellsLiteral text l ∧ l.numeral? = some n := by
  rw [numeral_eq] at h
  split at h
  · cases h
  · rename_i l s' hl
    split at h
    · cases h
    · rename_i hn
      cases h
      obtain ⟨text, rfl, hspelled⟩ := spells_of_literal? hl
      exact ⟨text, l, rfl, hspelled, hn⟩

theorem sound_scalar : Sound scalar SpellsScalar := by
  refine Sound.look fun c => ?_
  split
  · exact sound_word .null
  · exact sound_word (w := "true") (.bool true)
  · exact sound_word (w := "false") (.bool false)
  · intro s j rest hread
    obtain ⟨⟨_, s₁⟩, hquote, htext⟩ := bind_eq_ok_iff.mp hread
    obtain ⟨⟨t, s₂⟩, htake, heq⟩ := bind_eq_ok_iff.mp htext
    cases heq
    obtain ⟨blanks, rfl, hblanks⟩ := exists_of_mark hquote
    obtain ⟨text, rfl, hspelled⟩ := spells_of_string? (take_eq_ok_iff.mp htake)
    exact ⟨blanks, '"' :: text, by simp, hblanks, .text hspelled⟩
  · intro s j rest hread
    obtain ⟨⟨n, s₁⟩, hnumeral, heq⟩ := bind_eq_ok_iff.mp hread
    cases heq
    obtain ⟨text, l, rfl, hspelled, hn⟩ := exists_of_numeral hnumeral
    exact ⟨[], text, rfl, rfl, .number hspelled hn⟩

theorem complete_scalar {text : List Char} {j : Json} (h : SpellsScalar text j) : Reads scalar text (.ok j) := by
  cases h with
  | null => exact reads_null
  | bool b => exact reads_bool b
  | number hl hn =>
    refine reads_numeral ?_
    rw [numeral_eq, literal?_of_spells hl]
    simp only [hn]
  | text ht =>
    obtain ⟨body, rfl⟩ := ht.eq_cons
    exact Reads.look (c := '"') rfl
      ((takes_mark rfl).bind (f := fun _ => _) ((takes_spelled ht).reads.map Json.text))

/-- A value is a scalar unless it begins with a bracket. -/
theorem recognises_valueOr {array object : Reader Json} {A O : Spelling Json} (harray : Recognises array A)
    (hobject : Recognises object O) (hA : ∀ text j, A text j → ∃ body, text = '[' :: body)
    (hO : ∀ text j, O text j → ∃ body, text = '\x7b' :: body) :
    Recognises (valueOr array object) fun text j => SpellsScalar text j ∨ A text j ∨ O text j where
  skips := skipsBlanks_look.bind _
  sound := by
    refine Sound.look fun c => ?_
    split
    · exact harray.sound.mono fun text j h => .inr (.inl h)
    · exact hobject.sound.mono fun text j h => .inr (.inr h)
    · exact sound_scalar.mono fun text j h => .inl h
  complete := by
    rintro text j (h | h | h)
    · have hread := complete_scalar h
      obtain ⟨c, t, rfl, hc, -⟩ := h.eq_cons
      refine Reads.look (isBlank_of_beginsPlain hc) ?_
      split
      · cases hc
      · cases hc
      · exact hread
    · have hread := harray.complete h
      obtain ⟨body, rfl⟩ := hA text j h
      exact Reads.look (c := '[') rfl hread
    · have hread := hobject.complete h
      obtain ⟨body, rfl⟩ := hO text j h
      exact Reads.look (c := '\x7b') rfl hread

theorem recognises_malformed : Recognises (malformed : Reader α) fun _ _ => False where
  skips := fun _ _ _ => rfl
  sound := fun _ _ _ h => nomatch h
  complete := fun _ _ h => h.elim

/-- A reader of values recognises those that are spelled in its room. -/
theorem recognises_value (room : Nat) : Recognises (value room) (Spells room) := by
  induction room with
  | zero =>
    have hvalue := recognises_valueOr recognises_malformed recognises_malformed
      (fun _ _ h => h.elim) fun _ _ h => h.elim
    exact hvalue.congr fun text j => by simp [Spells]
  | succ room ih =>
    have hmembers : Recognises (members (fun done key => do return (key, ← field (value room)) :: done) [])
        (Through (Bracketed '\x7b' '\x7d' (SpellsMember (Spells room))) fun ms done =>
          ms.foldl (fun done m => m :: done) [] = done) := recognises_members (fun done m => m :: done) [] ih
    have hvalue := recognises_valueOr ((recognises_array ih (leads_spells room)).map Json.array)
      (hmembers.map fun done => Json.object done.reverse) ?_ ?_
    · refine hvalue.congr fun text j => ⟨?_, fun h => ?_⟩
      · rintro (h | ⟨items, h, rfl⟩ | ⟨done, ⟨ms, h, rfl⟩, rfl⟩)
        · exact .scalar h
        · exact .array h
        · have hobject : Spells (room + 1) text (.object ms) := .object h
          simpa using hobject
      · cases h with
        | scalar h => exact .inl h
        | array h => exact .inr (.inl ⟨_, h, rfl⟩)
        | @object ms h => exact .inr (.inr ⟨ms.reverse, ⟨ms, h, by simp⟩, by simp⟩)
    · rintro text j ⟨items, h, -⟩
      exact h.eq_cons
    · rintro text j ⟨done, ⟨ms, h, -⟩, -⟩
      exact h.eq_cons

theorem recognises_shaped (f : Json → Option α) (room : Nat) :
    Recognises (shaped f room) (Through (Spells room) fun j a => f j = some a) := by
  refine (recognises_value room).through fun j a s rest => ?_
  cases hf : f j <;> simp

end Values

section WholeTexts

theorem sound_misplaced : Sound (misplaced : Reader α) P := by
  refine Sound.look fun c => ?_
  split
  · rintro s a rest ⟨⟩
  · rintro s a rest ⟨⟩
  · intro s a rest hread
    obtain ⟨⟨_, s₁⟩, -, heq⟩ := bind_eq_ok_iff.mp hread
    cases heq

theorem recognises_table {item : Reader α} (h : Recognises item P) :
    Recognises (table item)
      (Through (Bracketed '\x7b' '\x7d' (SpellsMember P)) fun ms t => Table.ofList ms = t) := by
  have hmembers : Recognises (members (fun t key => do return t.insert key (← field item)) ∅)
      (Through (Bracketed '\x7b' '\x7d' (SpellsMember P)) fun ms t => Table.ofList ms = t) :=
    recognises_members (fun (t : Table α) m => t.insert m.1 m.2) ∅ h
  refine ⟨skipsBlanks_look.bind _, Sound.look fun c => ?_, fun text t ht => ?_⟩
  · split
    · exact hmembers.sound
    · exact sound_misplaced
  · have hread := hmembers.complete ht
    obtain ⟨ms, hms, -⟩ := ht
    obtain ⟨body, rfl⟩ := hms.eq_cons
    exact Reads.look (c := '\x7b') rfl hread

theorem Recognises.whole_eq_ok_iff (h : Recognises r P) {text : String} :
    whole r text = .ok a ↔ Padded P text.toList a := by
  constructor
  · intro hread
    obtain ⟨⟨a', rest⟩, hr, hrest⟩ := bind_eq_ok_iff.mp hread
    dsimp only at hrest
    split at hrest
    · rename_i hblank
      cases hrest
      obtain ⟨before, body, hs, hbefore, ha⟩ := h.sound hr
      rw [hs]
      exact .intro hbefore hblank ha
    · cases hrest
  · intro hpadded
    generalize htext : text.toList = s at hpadded
    cases hpadded with
    | @intro before body after _ hbefore hafter ha =>
      have hread : r text.toList = .ok (a, after) := by
        have hstop := stops_nil.blanks_append hafter
        rw [List.append_nil] at hstop
        rw [htext, h.skips _ _ hbefore, h.complete ha after hstop]
        rfl
      change (r text.toList).bind _ = _
      rw [hread]
      exact if_pos hafter

end WholeTexts

end Reader

variable {text : String} {j : Json}

/-- A tree is read from the texts that stand for it, and from no others. -/
theorem ofText_eq_ok_iff : ofText text = .ok j ↔ IsText text j :=
  (Reader.recognises_value maxNesting).whole_eq_ok_iff

/-- A text stands for one tree at most. -/
theorem IsText.unique {other : Json} (h : IsText text j) (hother : IsText text other) : j = other :=
  Except.ok.inj ((ofText_eq_ok_iff.mpr h).symm.trans (ofText_eq_ok_iff.mpr hother))

/-- A table is read from the objects whose members all have values of the shape that is asked for. -/
theorem tableText_eq_ok_iff {α : Type} {f : Json → Option α} {t : Table α} :
    tableText f text = .ok t ↔ ∃ members items, IsText text (.object members) ∧
      List.Forall₂ (Table.SameName fun j a => f j = some a) members items ∧ Table.ofList items = t := by
  have htable := Reader.recognises_table (Reader.recognises_shaped f (maxNesting - 1))
  rw [spellsMember_through, bracketed_through] at htable
  rw [tableText, htable.whole_eq_ok_iff]
  constructor
  · intro h
    generalize hs : text.toList = s at h
    cases h with
    | intro hbefore hafter h =>
      obtain ⟨items, ⟨members, hmembers, hitems⟩, ht⟩ := h
      refine ⟨members, items, ?_, hitems, ht⟩
      rw [IsText, hs]
      exact .intro hbefore hafter (spells_object_iff.mpr hmembers)
  · rintro ⟨members, items, h, hitems, ht⟩
    unfold IsText at h
    generalize text.toList = s at h
    cases h with
    | intro hbefore hafter h =>
      exact .intro hbefore hafter ⟨items, ⟨members, spells_object_iff.mp h, hitems⟩, ht⟩

end EventFold.Json
