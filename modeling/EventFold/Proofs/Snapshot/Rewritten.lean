import EventFold.Proofs.Json.Rewritten
import EventFold.Proofs.Snapshot.Saved

/-!
# Snapshots are read as they were written

Whatever text a snapshot is read from, the numbers in it are finite: there is no way to write another one. So
nothing is lost when the snapshot is written, and its own text, in which each state has one form, is read as the same
states in the same order. A text that has been written once is written again as it is.
-/

namespace EventFold

open Json (Fault Reader)
open Json.Reader

namespace State

variable {room : Nat} {kind : AggregatorKind} {j : Json} {s : State} {draft : Draft}

theorem isFinite_of_value {v : Value} (h : j.Fits room) (hv : j.value? = some v) : v.isFinite = true := by
  have hfits := Json.fits_value h hv
  cases v with
  | number x =>
    cases hfits with
    | number hlegible => exact hlegible
  | _ => rfl

theorem isFinite_of_ofContent? (h : j.Fits room) (hs : ofContent? kind j = some s) : s.isFinite = true := by
  unfold ofContent? at hs
  split at hs
  · obtain ⟨v, hv, rfl⟩ := Option.map_eq_some_iff.mp hs
    exact isFinite_of_value h hv
  · split at hs
    · obtain rfl := Option.some.inj hs
      rfl
    · cases hs
  · obtain rfl := Option.some.inj hs
    cases h with
    | number hlegible => exact Json.isFinite_toNumber hlegible
  · cases hs

theorem ensures_ofContent (h : j.Fits room) (kind : AggregatorKind) :
    Ensures (fun s => s.isFinite = true) (ofContent kind j) := by
  unfold ofContent
  split
  · rename_i s hs
    exact ensures_pure (isFinite_of_ofContent? h hs)
  · exact ensures_misshapen

theorem ensures_readContent (room : Nat) (kind : AggregatorKind) :
    Ensures (fun s => s.isFinite = true) (readContent room kind) := by
  refine ensures_bind fun c => ?_
  split
  · exact (Json.Reader.ensures_value room).bind fun j hj => ensures_ofContent hj _
  · exact ensures_misshapen
  · exact ensures_misshapen
  · exact (ensures_scalar room).bind fun j hj => ensures_ofContent hj _

/-- Content that waits for its kind is a tree that has been read, and a state is finite. -/
def Draft.IsRead (room : Nat) : Draft → Prop
  | .content j => j.Fits room
  | .done s => s.isFinite = true
  | _ => True

theorem ensures_readMember (h : draft.IsRead room) (key : String) :
    Ensures (Draft.IsRead room) (readMember room draft key) := by
  unfold readMember
  split
  · cases draft with
    | blank => exact ensures_bind fun _ => ensures_pure trivial
    | content j =>
      exact ensures_bind fun kind => (ensures_ofContent h kind).bind fun s hs => ensures_pure hs
    | kind kind => exact ensures_misshapen
    | done s => exact ensures_misshapen
  · split
    · cases draft with
      | blank => exact (Json.Reader.ensures_value room).field.bind fun j hj => ensures_pure hj
      | kind kind => exact (ensures_readContent room kind).field.bind fun s hs => ensures_pure hs
      | content j => exact ensures_misshapen
      | done s => exact ensures_misshapen
    · exact ensures_bind fun _ => ensures_pure h

theorem ensures_readElement (room : Nat) (draft : Draft) :
    Ensures (Draft.IsRead room) (readElement room draft) := by
  cases draft with
  | blank =>
    have htag : Ensures (Draft.IsRead room) (do mark '"'; return Draft.kind (← readTag)) :=
      ensures_bind fun _ => ensures_bind fun _ => ensures_pure trivial
    refine ensures_bind fun c => ?_
    dsimp only
    split
    · exact ensures_bind fun _ => htag
    · exact htag
  | kind kind => exact (ensures_readContent room kind).bind fun s hs => ensures_pure hs
  | content j => exact ensures_malformed
  | done s => exact ensures_malformed

theorem ensures_readDraft (h : draft.IsRead room) : Ensures (fun s => s.isFinite = true) (readDraft draft) := by
  cases draft with
  | done s => exact ensures_pure h
  | _ => exact ensures_misshapen

/-- No form of a state holds a number that is not finite. -/
theorem ensures_read (room : Nat) : Ensures (fun s => s.isFinite = true) (State.read room) := by
  refine ensures_bind fun c => ?_
  split
  · have hbracket : Ensures (Draft.IsRead room) (bracket '[' ']' (readElement room) .blank) :=
      ensures_bracket '[' ']' (fun draft _ => ensures_readElement room draft) trivial
    exact hbracket.bind fun draft h => ensures_readDraft h
  · have hobject : Ensures (Draft.IsRead room) (object (readMember room) .blank) :=
      ensures_object (fun draft key h => ensures_readMember h key) trivial
    exact hobject.bind fun draft h => ensures_readDraft h

end State

namespace Snapshot

variable {s : Snapshot} {text : String} {path : Option String}

theorem ensures_read : Ensures (fun s : Snapshot => ∀ e ∈ s.states.entries, e.2.isFinite = true) Snapshot.read :=
  (ensures_table (State.ensures_read (Json.maxNesting - 2))).bind fun _ h => ensures_pure h

theorem isFinite_of_ofText (h : ofText text path = .ok s) (name : String) (state : State)
    (hstate : s.get? name = some state) : state.isFinite = true := by
  unfold ofText at h
  split at h
  · rename_i s' hwhole
    cases h
    exact ensures_read.whole hwhole (name, state) (Table.get?_eq_some_iff.mp hstate)
  · cases h

/-- Whatever text a snapshot has been read from, its own text is read as the same states in the same order, and
what is written for that is the same text again. -/
theorem ofText_respelled (h : ofText text path = .ok s) (hnumbers : s.ReadsBack) (other : Option String) :
    ofText s.text other = .ok s ∧ (ofText s.text other).map Snapshot.text = .ok s.text := by
  have hagain : ofText s.text other = .ok s := (ofText_text_eq_self_iff hnumbers other).mpr (isFinite_of_ofText h)
  exact ⟨hagain, by rw [hagain]; rfl⟩

/-- States in every form: an array, an object with its members turned round and others between them, a name that
comes twice with states of two kinds, the last count and integers where numbers are wanted. -/
def scribbled : String :=
  "\x7b\"n\": [\"funnel\", 18446744073709551615], " ++
    "\"a\": \x7b\"kind\": \x7b\"funnel\": null\x7d, \"state\": 1\x7d, " ++
    "\"m\": \x7b\"state\": 2, \"note\": [1e999, \x7b\x7d], \"kind\": \"state_machine\"\x7d, " ++
    "\"a\": \x7b\"state\": -7, \"kind\": \"select_if\"\x7d, \"\\u0062\": [\"select_if\", \"\\u00e9\\n\"]\x7d"

/-- The text that is written for them. -/
def fair : String :=
  "\x7b\n" ++
    "  \"n\": \x7b\n    \"kind\": \"funnel\",\n    \"state\": 18446744073709551615\n  \x7d,\n" ++
    "  \"a\": \x7b\n    \"kind\": \"select_if\",\n    \"state\": -7.0\n  \x7d,\n" ++
    "  \"m\": \x7b\n    \"kind\": \"state_machine\",\n    \"state\": 2.0\n  \x7d,\n" ++
    "  \"b\": \x7b\n    \"kind\": \"select_if\",\n    \"state\": \"é\\n\"\n  \x7d\n\x7d"

theorem ofText_scribbled : (ofText scribbled none).toOption.map (fun s => (s.states.entries, s.text)) =
    some ([("n", .reached 18446744073709551615), ("a", .selected (.number (-7))), ("m", .standing 2),
      ("b", .selected (.text "é\n"))], fair) := by
  decide +kernel

theorem ofText_respelled_scribbled : ∃ s, ofText scribbled none = .ok s ∧ s.ReadsBack ∧ s.text = fair ∧
    ofText fair none = .ok s := by
  obtain ⟨s, hs, hread⟩ := Option.map_eq_some_iff.mp ofText_scribbled
  obtain ⟨hentries, htext⟩ := Prod.mk.inj hread
  have hok : ofText scribbled none = .ok s := eq_ok_of_toOption hs
  have hback : s.ReadsBack := by
    intro name state hstate
    have hmem := Table.get?_eq_some_iff.mp hstate
    rw [hentries] at hmem
    have hnumbers : ∀ x ∈ ([-7, 2] : List Number),
        (Json.Reader.numeral (Layout.json.render x)).toOption = some (.real x, []) := by
      decide +kernel
    simp only [List.mem_cons, Prod.mk.injEq, List.not_mem_nil, or_false] at hmem
    rcases hmem with ⟨-, rfl⟩ | ⟨-, rfl⟩ | ⟨-, rfl⟩ | ⟨-, rfl⟩
    · trivial
    · exact fun _ => eq_ok_of_toOption (hnumbers _ (by simp))
    · exact fun _ => eq_ok_of_toOption (hnumbers _ (by simp))
    · trivial
  exact ⟨s, hok, hback, htext, htext ▸ (ofText_respelled hok hback none).1⟩

end Snapshot

end EventFold
