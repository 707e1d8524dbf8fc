import EventFold.Engine.Saving
import EventFold.Proofs.Engine.Reachable
import EventFold.Proofs.Json.Written

/-!
# What a saved snapshot holds

The text of a snapshot is read back member by member. A state whose number is not finite is written with
`null` in the place of the number. For a selection that is a value, and another one than was saved; for a
machine it is no state at all, and then the whole text is refused.
-/

namespace EventFold

open Json (Fault Reader Spacing fieldText Plain)
open Json.Reader

namespace State

/-- The numbers of the state that are finite read back. -/
def ReadsBack : State → Prop
  | selected v => v.ReadsBack
  | reached _ => True
  | standing x => x.isFinite = true → x.ReadsBack

def isFinite : State → Bool
  | selected v => v.isFinite
  | reached _ => true
  | standing x => x.isFinite

/-- Whether the text of the state holds a state. -/
def isLegible : State → Bool
  | standing x => x.isFinite
  | _ => true

/-- The state that the text of a legible state holds. -/
def written : State → State
  | selected v => selected v.written
  | s => s

def reread (s : State) : Except Fault State :=
  if s.isLegible then .ok s.written else .error .misshapen

variable {s : State} {spacing : Spacing} {depth room : Nat} {kind : AggregatorKind} {j : Json}

/-- A state survives if its text holds a state and nothing in it was replaced. -/
theorem isFinite_iff : s.isFinite = true ↔ s.isLegible = true ∧ s.written = s := by
  cases s with
  | selected v => simp [isFinite, isLegible, written, Value.written_eq_self_iff]
  | reached steps => simp [isFinite, isLegible, written]
  | standing x => simp [isFinite, isLegible, written]

def given (kind : AggregatorKind) (j : Json) : Except Fault State :=
  match ofContent? kind j with
  | some s => .ok s
  | none => .error .misshapen

theorem ofContent_apply (kind : AggregatorKind) (j : Json) (rest : List Char) :
    ofContent kind j rest = (given kind j).map fun s => (s, rest) := by
  unfold ofContent given
  cases ofContent? kind j <;> rfl

/-- A count fits the words that integers are read as. -/
theorem steps_le (steps : UInt64) : steps.toNat ≤ Json.maxWord := by
  have hlt := steps.toNat_lt
  rw [Json.maxWord_eq]
  omega

theorem isWord_steps (steps : UInt64) : Json.IsWord steps.toNat := by
  have hle := steps_le steps
  unfold Json.IsWord
  omega

theorem ofContent?_steps (steps : UInt64) :
    ofContent? .funnel (.number (.integer steps.toNat)) = some (reached steps) := by
  simp [ofContent?, steps_le steps]

theorem reads_content_of_scalar (room : Nat) (hkind : kind ≠ .selectIf) {text : List Char}
    (hplain : Plain text) (h : Reads scalar text (.ok j)) :
    Reads (readContent room kind) text (given kind j) := by
  obtain ⟨c, t, rfl, hc⟩ := hplain
  refine Reads.look (Json.isBlank_of_beginsPlain hc) ?_
  split
  · exact absurd rfl hkind
  · cases hc
  · cases hc
  · exact h.finish (ofContent_apply kind)

theorem reads_content (room : Nat) (spacing : Spacing) (depth : Nat) (h : s.ReadsBack) :
    Reads (readContent room s.kind) (s.content.write spacing depth) s.reread := by
  cases s with
  | selected v =>
    have hread := Json.reads_value_of_scalar (Json.reads_atom spacing depth h)
      (Json.plain_atom spacing depth h) room
    have hgiven : given .selectIf v.written.toJson = .ok (selected v.written) := by
      simp [given, ofContent?, Json.value?_toJson]
    obtain ⟨c, t, htext, hc⟩ := Json.plain_atom spacing depth h
    change Reads _ (v.toJson.write spacing depth) (.ok (selected v.written))
    rw [← hgiven]
    rw [htext] at hread ⊢
    exact Reads.look (Json.isBlank_of_beginsPlain hc) (hread.finish (ofContent_apply .selectIf))
  | reached steps =>
    have hnumeral := Json.numeral_integerChars (isWord_steps steps)
    have hgiven : given .funnel (.number (.integer steps.toNat)) = .ok (reached steps) := by
      rw [given, ofContent?_steps]
    have hkind : AggregatorKind.funnel ≠ .selectIf := by decide
    have hread := reads_content_of_scalar room hkind (Json.plain_of_numeral hnumeral)
      (Json.reads_numeral hnumeral)
    rw [hgiven] at hread
    exact hread
  | standing x =>
    have hgiven : given .stateMachine (if x.isFinite then .number (.real x) else .null) =
        (standing x).reread := by
      cases hx : x.isFinite <;>
        simp [reread, isLegible, written, hx, given, ofContent?, Json.Numeral.toNumber]
    have hkind : AggregatorKind.stateMachine ≠ .selectIf := by decide
    have hread := reads_content_of_scalar room hkind (Json.plain_real h) (Json.reads_real h)
    rw [hgiven] at hread
    exact hread

theorem skipsBlanks_readContent : SkipsBlanks (readContent room kind) := by
  cases kind <;> exact skipsBlanks_look.bind _

theorem takes_readTag (kind : AggregatorKind) :
    Takes readTag (kind.tag.toList.flatMap Json.escapeChar ++ ['"']) kind := by
  intro rest
  rw [readTag, bind_apply, takes_string]
  simp only [Except.bind, AggregatorKind.ofTag?_tag]
  rfl

theorem reads_kind (kind : AggregatorKind) : Reads readKind (Json.quoted kind.tag) (.ok kind) :=
  Reads.look (c := '"') rfl
    ((takes_mark rfl).bind (f := fun _ => readTag) (takes_readTag kind).reads)

theorem skipsBlanks_readKind : SkipsBlanks readKind := skipsBlanks_look.bind _

def drafted : Draft → Except Fault State
  | .done s => .ok s
  | _ => .error .misshapen

def readDraft (draft : Draft) : Reader State :=
  match draft with
  | .done s => return s
  | _ => misshapen

theorem readDraft_apply (draft : Draft) (rest : List Char) :
    readDraft draft rest = (drafted draft).map fun s => (s, rest) := by
  cases draft <;> rfl

theorem readMember_kind (room : Nat) :
    readMember room .blank "kind" = do return .kind (← field readKind) := by
  rfl

theorem readMember_state (room : Nat) (kind : AggregatorKind) :
    readMember room (.kind kind) "state" = do return .done (← field (readContent room kind)) := by
  rfl

theorem reads_state (hsp : spacing.IsBlank) (h : s.ReadsBack) :
    Reads (State.read room) (s.toJson.write spacing depth) s.reread := by
  have hkind := ((reads_kind s.kind).field skipsBlanks_readKind hsp.gap).map Draft.kind
  rw [← readMember_kind room] at hkind
  have hcontent := ((reads_content room spacing (depth + 1) h).field skipsBlanks_readContent
    hsp.gap).map Draft.done
  rw [← readMember_state] at hcontent
  have hgathers : Gathers (Json.memberElement (readMember room)) .blank
      ([("kind", .text s.kind.tag), ("state", s.content)].map (Json.memberText spacing (depth + 1)))
      (s.reread.map .done) := by
    refine .cons (Json.reads_member "kind" hkind) ?_
    have hlast := Json.reads_member "state" hcontent
    cases hs : s.reread with
    | error fault =>
      rw [hs] at hlast
      exact .fail hlast
    | ok s' =>
      rw [hs] at hlast
      exact .cons hlast (.nil _)
  have hobject := Json.reads_object hsp hgathers
  obtain ⟨body, hbody⟩ := Json.write_object_eq_cons spacing depth
    [("kind", .text s.kind.tag), ("state", s.content)]
  rw [hbody] at hobject
  rw [State.toJson, hbody]
  have hread := hobject.finish (f := readDraft) (g := drafted) readDraft_apply
  have hstate : (s.reread.map Draft.done).bind drafted = s.reread := by
    cases s.reread <;> rfl
  rw [hstate] at hread
  exact Reads.look rfl hread

theorem skipsBlanks_read : SkipsBlanks (State.read room) := skipsBlanks_look.bind _

end State

namespace Snapshot

variable {s : Snapshot} {spacing : Spacing}

/-- The finite numbers of the snapshot read back. -/
def ReadsBack (s : Snapshot) : Prop := ∀ name state, s.get? name = some state → state.ReadsBack

theorem reads_snapshot (depth : Nat) (hsp : spacing.IsBlank) (h : s.ReadsBack) :
    Reads Snapshot.read (s.toJson.write spacing depth) ((s.states.traverse State.reread).map Snapshot.mk) := by
  have hread : Reads (table (State.read (Json.maxNesting - 2))) (s.toJson.write spacing depth)
      (s.states.traverse State.reread) :=
    Json.reads_table hsp State.skipsBlanks_read fun e he =>
      State.reads_state hsp (h e.1 e.2 (Table.get?_eq_some_iff.mpr he))
  exact hread.map Snapshot.mk

theorem traverse_reread (states : Table State) : states.traverse State.reread =
    if states.entries.all fun e => e.2.isLegible then .ok (states.map fun _ => State.written)
    else .error .misshapen := by
  split
  · rename_i hall
    refine Table.traverse_eq_ok fun e he => ?_
    rw [State.reread, if_pos (List.all_eq_true.mp hall e he)]
  · rename_i hsome
    rw [List.all_eq_true] at hsome
    obtain ⟨e, he⟩ := Classical.not_forall.mp hsome
    obtain ⟨hmem, hill⟩ := Classical.not_imp.mp he
    refine Table.traverse_eq_error ?_ ⟨e, hmem, by rw [State.reread, if_neg hill]⟩
    intro d _ other hother
    unfold State.reread at hother
    split at hother
    · cases hother
    · cases hother
      rfl

/-- What the text of a snapshot holds: nothing if a machine stands at a number that is not finite, otherwise
the snapshot with null in the place of selected numbers that are not. -/
theorem ofText_text (h : s.ReadsBack) (path : Option String) : ofText s.text path =
    if s.states.entries.all fun e => e.2.isLegible then .ok ⟨s.states.map fun _ => State.written⟩
    else .error (.snapshot .misshapen s.text path) := by
  have hwhole : whole Snapshot.read s.text = (s.states.traverse State.reread).map Snapshot.mk :=
    (reads_snapshot 0 Json.spread_isBlank h).whole
  unfold ofText
  rw [hwhole, traverse_reread]
  cases s.states.entries.all fun e => e.2.isLegible <;> rfl

theorem ofText_text_eq_self_iff (h : s.ReadsBack) (path : Option String) : ofText s.text path = .ok s ↔
    ∀ name state, s.get? name = some state → state.isFinite = true := by
  rw [ofText_text h]
  constructor
  · intro hok name state hstate
    split at hok
    · rename_i hall
      have hsame : s.states.map (fun _ => State.written) = s.states :=
        congrArg Snapshot.states (Except.ok.inj hok)
      have hget : (s.states.map fun _ => State.written).get? name =
          (s.states.get? name).map State.written := Table.get?_map _
      rw [hsame, show s.states.get? name = some state from hstate] at hget
      have hmem := Table.get?_eq_some_iff.mp hstate
      exact State.isFinite_iff.mpr ⟨List.all_eq_true.mp hall _ hmem, (Option.some.inj hget).symm⟩
    · cases hok
  · intro hfinite
    have hstate : ∀ e ∈ s.states.entries, e.2.isLegible = true ∧ e.2.written = e.2 := fun e he =>
      State.isFinite_iff.mp (hfinite e.1 e.2 (Table.get?_eq_some_iff.mpr he))
    have hsame : s.states.map (fun _ => State.written) = s.states := by
      apply Table.ext_entries
      refine (List.map_congr_left fun e he => ?_).trans (List.map_id _)
      exact Prod.ext rfl (hstate e he).2
    rw [if_pos (List.all_eq_true.mpr fun e he => (hstate e he).1), hsame]

end Snapshot

namespace Engine

/-- What becomes of a saved engine when its text is read. It is what was saved exactly if no state holds a
number that is infinite or NaN. -/
theorem ofText_save (e : Engine) (h : e.save.ReadsBack) (path : Option String) :
    (Snapshot.ofText e.save.text path =
      if e.save.states.entries.all fun entry => entry.2.isLegible
      then .ok ⟨e.save.states.map fun _ => State.written⟩
      else .error (.snapshot .misshapen e.save.text path)) ∧
    (Snapshot.ofText e.save.text path = .ok e.save ↔
      ∀ name state, e.save.get? name = some state → state.isFinite = true) :=
  ⟨Snapshot.ofText_text h path, Snapshot.ofText_text_eq_self_iff h path⟩

/-- A machine that divides by zero, and a selection of a number. -/
def divided : Engine :=
  let one : Form := .atom (.number 1)
  let ratio : Form := .list [.atom (.text "/"), one, .atom (.number 0)]
  let spec := (Specification.empty.withAggregator "m" (.list [.atom (.text "state_machine"), ratio])).withAggregator
    "one" (.list [.atom (.text "select_if"), .atom (.bool true), one])
  (((Engine.new .any 8).update spec).after.track (.named "go")).after

theorem states_divided : divided.save.states.entries =
    [("m", .standing (1 / 0)), ("one", .selected (.number 1))] := by
  decide +kernel

theorem readsBack_divided : divided.save.ReadsBack := by
  intro name state h
  have hmem := Table.get?_eq_some_iff.mp h
  rw [states_divided] at hmem
  rcases List.mem_cons.mp hmem with heq | hmem
  · cases heq
    intro hfinite
    exact absurd hfinite (by decide +kernel)
  · cases List.mem_singleton.mp hmem
    exact fun _ => eq_ok_of_toOption (by decide +kernel)

theorem ofText_save_divided : Reachable divided ∧
    divided.save.states.entries = [("m", .standing (1 / 0)), ("one", .selected (.number 1))] ∧
    Snapshot.ofText divided.save.text none = .error (.snapshot .misshapen divided.save.text none) ∧
    Snapshot.ofText divided.save.text none ≠ .ok divided.save := by
  have hsaved := ofText_save divided readsBack_divided none
  have hill : (divided.save.states.entries.all fun entry => entry.2.isLegible) = false := by
    decide +kernel
  rw [hill] at hsaved
  refine ⟨.track _ (.update _ (.new .any 8)), states_divided, hsaved.1, ?_⟩
  intro hok
  rw [hsaved.1] at hok
  cases hok

end Engine

end EventFold
