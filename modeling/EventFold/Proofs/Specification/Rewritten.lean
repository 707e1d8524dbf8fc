import EventFold.Proofs.Json.Rewritten
import EventFold.Specification

/-!
# Specifications are read as they were written

A specification that has been read holds no number that is written as null, nests no deeper in its sections
than a reader has room for, and has the members of its triggers in order. So its own text is read again, section
after section, and gives the same entries in the same order.
-/

namespace EventFold.Specification

open Json (Fault Reader Spacing Fits)
open Json.Reader

variable {s whole : Specification} {part : Section} {seen : List Section} {text : String}

/-- The brackets that are open around an entry are those of the document and of the section. -/
def entryRoom : Nat := Json.maxNesting - 2

section Read

/-- What every text leaves in a specification: trees that can be written and read again. -/
structure IsRead (s : Specification) : Prop where
  vars : ∀ e ∈ s.vars.entries, e.2.toJson.Fits entryRoom
  functions : ∀ e ∈ s.functions.entries, e.2.toJson.Fits entryRoom
  aggregators : ∀ e ∈ s.aggregators.entries, e.2.toJson.Fits entryRoom
  triggers : ∀ e ∈ s.triggers.entries, e.2.Fits entryRoom ∧ e.2.sorted = e.2

theorem isRead_empty : empty.IsRead :=
  ⟨List.forall_mem_nil _, List.forall_mem_nil _, List.forall_mem_nil _, List.forall_mem_nil _⟩

theorem ensures_forms : Ensures (fun t => ∀ e ∈ t.entries, e.2.toJson.Fits entryRoom)
    (table (shaped Json.form? entryRoom)) := by
  have hform : Ensures (fun f : Form => f.toJson.Fits entryRoom) (shaped Json.form? entryRoom) := by
    refine (ensures_shaped Json.form? entryRoom).mono ?_
    rintro f ⟨j, hfits, hf⟩
    exact Json.fits_form hfits hf
  exact ensures_table hform

theorem ensures_readSection (h : s.IsRead) (part : Section) : Ensures IsRead (readSection s part) := by
  cases part with
  | vars =>
    have hvalue : Ensures (fun v : Value => v.toJson.Fits entryRoom) (shaped Json.value? entryRoom) := by
      refine (ensures_shaped Json.value? entryRoom).mono ?_
      rintro v ⟨j, hfits, hv⟩
      exact Json.fits_value hfits hv
    exact (ensures_table hvalue).bind fun t ht => ensures_pure { h with vars := ht }
  | functions => exact ensures_forms.bind fun t ht => ensures_pure { h with functions := ht }
  | aggregators => exact ensures_forms.bind fun t ht => ensures_pure { h with aggregators := ht }
  | triggers =>
    have htree : Ensures (fun j : Json => j.Fits entryRoom ∧ j.sorted = j)
        (shaped (fun j => some j.sorted) entryRoom) := by
      refine (ensures_shaped (fun j => some j.sorted) entryRoom).mono ?_
      rintro a ⟨j, hfits, ha⟩
      exact Option.some.inj ha ▸ Json.fits_sorted hfits
    exact (ensures_table htree).bind fun t ht => ensures_pure { h with triggers := ht }

theorem ensures_readMember (h : s.IsRead) (seen : List Section) (key : String) :
    Ensures (fun left => left.1.IsRead) (readMember (s, seen) key) := by
  unfold readMember
  split
  · split
    · exact ensures_misshapen
    · exact (ensures_readSection h _).field.bind fun s' hs => ensures_pure hs
  · exact ensures_bind fun _ => ensures_pure h

theorem ensures_readElement (h : s.IsRead) (left : List Section) :
    Ensures (fun left => left.1.IsRead) (readElement (s, left)) := by
  unfold readElement
  split
  · exact (ensures_readSection h _).bind fun s' hs => ensures_pure hs
  · exact ensures_malformed

theorem ensures_read : Ensures IsRead read := by
  refine ensures_bind fun c => ?_
  split
  · have hbracket : Ensures (fun left => left.1.IsRead)
        (bracket '[' ']' readElement (empty, Section.all)) :=
      ensures_bracket '[' ']' (fun left h => ensures_readElement h left.2) isRead_empty
    exact hbracket.bind fun left h => ensures_pure h
  · have hobject : Ensures (fun seen => seen.1.IsRead) (object readMember (empty, [])) :=
      ensures_object (fun seen key h => ensures_readMember h seen.2 key) isRead_empty
    exact hobject.bind fun seen h => ensures_pure h

theorem isRead_of_ofText (h : ofText text = .ok s) : s.IsRead := ensures_read.whole h

end Read

section Written

variable {spacing : Spacing} {depth : Nat}

/-- The finite numbers of the specification are read from the texts that are written for them. -/
def ReadsBack (s : Specification) : Prop := s.toJson.ReadsBack

def withSection (s whole : Specification) : Section → Specification
  | .vars => { s with vars := whole.vars }
  | .functions => { s with functions := whole.functions }
  | .aggregators => { s with aggregators := whole.aggregators }
  | .triggers => { s with triggers := whole.triggers }

def sectionJson (s : Specification) : Section → Json
  | .vars => tableJson Value.toJson s.vars
  | .functions => tableJson Form.toJson s.functions
  | .aggregators => tableJson Form.toJson s.aggregators
  | .triggers => tableJson id s.triggers

theorem toJson_eq (s : Specification) :
    s.toJson = .object (Section.all.map fun part => (part.key, s.sectionJson part)) := rfl

theorem ReadsBack.sectionJson (h : s.ReadsBack) (part : Section) : (s.sectionJson part).ReadsBack := by
  have hall : part ∈ Section.all := by cases part <;> decide
  unfold ReadsBack at h
  rw [toJson_eq] at h
  exact h.member (List.mem_map_of_mem hall)

/-- A section whose entries stand for themselves is read from its text. -/
theorem reads_tableJson {α : Type} {f : Json → Option α} {g : α → Json} {t : Table α}
    (hsp : spacing.IsBlank) (h : (tableJson g t).ReadsBack)
    (hentries : ∀ e ∈ t.entries, (g e.2).Fits entryRoom ∧ f (g e.2) = some e.2) (depth : Nat) :
    Reads (table (shaped f entryRoom)) ((tableJson g t).write spacing depth) (.ok t) := by
  have hsame : t.traverse (fun a => (.ok a : Except Fault α)) = .ok t := by
    rw [Table.traverse_eq_ok (g := id) fun e _ => rfl]
    exact congrArg Except.ok (Table.ext_entries (List.map_id _))
  rw [← hsame]
  refine Json.reads_table hsp (Json.skipsBlanks_shaped f entryRoom) fun e he => ?_
  obtain ⟨hfits, hgiven⟩ := hentries e he
  have hback : (g e.2).ReadsBack := Json.ReadsBack.member h (List.mem_map_of_mem he)
  exact Json.reads_shaped hsp hfits hback hgiven _

theorem reads_section (hsp : spacing.IsBlank) (hread : whole.IsRead) (h : whole.ReadsBack)
    (s : Specification) (part : Section) (depth : Nat) :
    Reads (readSection s part) ((whole.sectionJson part).write spacing depth)
      (.ok (s.withSection whole part)) := by
  have hback := h.sectionJson part
  cases part with
  | vars =>
    have htable := reads_tableJson (f := Json.value?) hsp hback
      (fun e he => ⟨hread.vars e he, Json.value?_toJson e.2⟩) depth
    exact htable.map fun t => { s with vars := t }
  | functions =>
    have htable := reads_tableJson (f := Json.form?) hsp hback
      (fun e he => ⟨hread.functions e he, Json.form?_toJson e.2⟩) depth
    exact htable.map fun t => { s with functions := t }
  | aggregators =>
    have htable := reads_tableJson (f := Json.form?) hsp hback
      (fun e he => ⟨hread.aggregators e he, Json.form?_toJson e.2⟩) depth
    exact htable.map fun t => { s with aggregators := t }
  | triggers =>
    have htable := reads_tableJson (f := fun j => some j.sorted) hsp hback
      (fun e he => ⟨(hread.triggers e he).1, congrArg some (hread.triggers e he).2⟩) depth
    exact htable.map fun t => { s with triggers := t }

theorem skipsBlanks_readSection (s : Specification) (part : Section) : SkipsBlanks (readSection s part) := by
  cases part <;> exact (skipsBlanks_look.bind _).bind _

theorem ofKey?_key (part : Section) : Section.ofKey? part.key = some part := by
  cases part <;> decide

theorem readMember_key (hnew : part ∉ seen) :
    readMember (s, seen) part.key = do return (← field (readSection s part), part :: seen) := by
  unfold readMember
  rw [ofKey?_key]
  exact if_neg hnew

theorem reads_member (hsp : spacing.IsBlank) (hread : whole.IsRead) (h : whole.ReadsBack)
    (hnew : part ∉ seen) : Reads (Json.memberElement readMember (s, seen))
      (Json.memberText spacing depth (part.key, whole.sectionJson part))
      (.ok (s.withSection whole part, part :: seen)) := by
  refine Json.reads_member part.key ?_
  have hfield := (reads_section hsp hread h s part depth).field (skipsBlanks_readSection s part) hsp.gap
  rw [readMember_key hnew]
  exact hfield.map fun s' => (s', part :: seen)

/-- The four sections are read in the order in which they are written, each for the first time. -/
theorem reads_toJson (hsp : spacing.IsBlank) (hread : s.IsRead) (h : s.ReadsBack) (depth : Nat) :
    Reads read (s.toJson.write spacing depth) (.ok s) := by
  have hgathers : Gathers (Json.memberElement readMember) (empty, [])
      ((Section.all.map fun part => (part.key, s.sectionJson part)).map
        (Json.memberText spacing (depth + 1))) (.ok (s, Section.all.reverse)) :=
    .cons (reads_member hsp hread h (by decide)) (.cons (reads_member hsp hread h (by decide))
      (.cons (reads_member hsp hread h (by decide)) (.cons (reads_member hsp hread h (by decide))
        (.nil _))))
  have hobject := (Json.reads_object hsp hgathers).map Prod.fst
  obtain ⟨body, hbody⟩ := Json.write_object_eq_cons spacing depth
    (Section.all.map fun part => (part.key, s.sectionJson part))
  rw [toJson_eq]
  rw [hbody] at hobject ⊢
  exact Reads.look (c := '\x7b') rfl hobject

/-- Whatever text a specification has been read from, in either form, its compact text is read as the same
specification, with the entries of each section in the same order. -/
theorem ofText_rewritten (h : ofText text = .ok s) (hnumbers : s.ReadsBack) :
    ofText s.toJson.compact = .ok s :=
  (reads_toJson Json.compact_isBlank (isRead_of_ofText h) hnumbers 0).whole

/-- Sections out of order, a key that is not one of a section, a variable that is given twice, an integer in a
trigger whose members are out of order. -/
def shuffled : String :=
  "\x7b\"triggers\": \x7b\"t\": \x7b\"b\": 1, \"a\": [0.5, \x7b\x7d]\x7d\x7d, \"note\": null, " ++
    "\"variables\": \x7b\"rate\": 2.5, \"on\": true, \"rate\": 3\x7d, " ++
    "\"aggregators\": \x7b\"n\": [\"select_if\", [\"=\", \"event.name\", \"a\"], 1e-3]\x7d\x7d"

/-- The text that is written for it. -/
def straightened : String :=
  "\x7b\"variables\":\x7b\"rate\":3.0,\"on\":true\x7d,\"functions\":\x7b\x7d," ++
    "\"aggregators\":\x7b\"n\":[\"select_if\",[\"=\",\"event.name\",\"a\"],0.001]\x7d," ++
    "\"triggers\":\x7b\"t\":\x7b\"a\":[0.5,\x7b\x7d],\"b\":1\x7d\x7d\x7d"

theorem ofText_shuffled : (ofText shuffled).toOption.map (fun s => (s.toJson.numbers, s.toJson.compact)) =
    some ([3, 0.001, 0.5], straightened) := by
  decide +kernel

theorem ofText_rewritten_shuffled : ∃ s, ofText shuffled = .ok s ∧ s.ReadsBack ∧
    s.toJson.compact = straightened ∧ ofText straightened = .ok s := by
  obtain ⟨s, hs, hread⟩ := Option.map_eq_some_iff.mp ofText_shuffled
  obtain ⟨hnumbers, htext⟩ := Prod.mk.inj hread
  have hok : ofText shuffled = .ok s := eq_ok_of_toOption hs
  have hback : s.ReadsBack := by
    intro x hx _
    rw [hnumbers] at hx
    have hall : ∀ x ∈ ([3, 0.001, 0.5] : List Number),
        (Json.Reader.numeral (Layout.json.render x)).toOption = some (.real x, []) := by
      decide +kernel
    exact eq_ok_of_toOption (hall x hx)
  exact ⟨s, hok, hback, htext, htext ▸ ofText_rewritten hok hback⟩

end Written

end EventFold.Specification
