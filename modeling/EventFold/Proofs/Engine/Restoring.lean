import EventFold.Proofs.Engine.Reapplying

/-!
# What a restored snapshot leaves

A snapshot that is restored decides all states. An aggregator takes the state that stands under its name, if that is
one of its kind, and is otherwise as before any event; the state it was in has no part in it. So of two snapshots the
one restored last is all that counts, and a snapshot of the engine itself changes nothing. The latter rests on every
aggregator of an engine being in a state of its own kind. Nothing but states is touched in any case.
-/

namespace EventFold.Engine

variable {d e : Engine} {s : Snapshot} {name : String} {a b : Aggregator}

/-- The state that a snapshot holds for an aggregator of the name and kind. -/
def stateFrom (s : Snapshot) (name : String) (kind : AggregatorKind) : State :=
  match s.get? name with
  | some state => if state.kind = kind then state else .initial kind
  | none => .initial kind

theorem restored_eq (s : Snapshot) (name : String) (a : Aggregator) :
    restored s name a = { a with state := stateFrom s name a.kind } := by
  unfold restored stateFrom Aggregator.restore
  cases s.get? name with
  | none => rfl
  | some state =>
    by_cases hkind : state.kind = a.kind
    · simp only [if_pos hkind]
    · simp only [if_neg hkind]
      rfl

/-- What is put back in an aggregator that differs in its state alone is the aggregator as it was saved. -/
theorem restore_of_reset_eq (h : b.reset = a.reset) (hkind : a.state.kind = a.kind) :
    b.restore a.state = a := by
  obtain ⟨name, source, rule, state⟩ := a
  obtain ⟨name', source', rule', state'⟩ := b
  simp only [Aggregator.reset, Aggregator.mk.injEq] at h
  obtain ⟨rfl, rfl, rfl, -⟩ := h
  exact if_pos hkind

/-- The states before have no part in what is restored, counted and told. -/
theorem restore_fresh (e : Engine) (s : Snapshot) :
    ({ e with aggregators := fresh e.aggregators } : Engine).restore s = e.restore s := by
  have hregistry : (fresh e.aggregators).map (restored s) = e.aggregators.map (restored s) := by
    rw [fresh, Table.map_map]
    rfl
  have hentries : (fresh e.aggregators).entries = e.aggregators.entries.map fun p => (p.1, p.2.reset) := rfl
  simp only [restore, hregistry, hentries, List.countP_map, List.filterMap_map]
  rfl

theorem restore_congr (h : fresh d.aggregators = fresh e.aggregators) (s : Snapshot) :
    d.restore s = { e.restore s with after := { d with aggregators := (e.restore s).after.aggregators } } := by
  rw [← restore_fresh d, ← restore_fresh e, h]
  rfl

theorem get?_restore (h : e.aggregators.get? name = some a) :
    (e.restore s).after.aggregators.get? name = some { a with state := stateFrom s name a.kind } := by
  rw [restore, Table.get?_map, h, Option.map_some, restored_eq]

theorem fresh_restore (e : Engine) (s : Snapshot) : fresh (e.restore s).after.aggregators = fresh e.aggregators :=
  (restore_sameBasis e s).fresh

/-- A snapshot without states starts every aggregator afresh, and none has taken its state from it. -/
theorem restore_empty (e : Engine) :
    (e.restore .empty).after = { e with aggregators := fresh e.aggregators } ∧ (e.restore .empty).result = .ok 0 := by
  refine ⟨rfl, congrArg Except.ok ?_⟩
  exact List.countP_eq_zero.mpr fun _ _ => Bool.false_ne_true

/-- A snapshot that is restored again finds everything as it would leave it. -/
theorem restore_restore (e : Engine) (s : Snapshot) : (e.restore s).after.restore s = e.restore s :=
  restore_congr (fresh_restore e s) s

/-- An engine that differs in its states alone takes over the states that are saved. -/
theorem restore_save (hfresh : fresh e.aggregators = fresh d.aggregators) (hsound : d.Sound) :
    (e.restore d.save).after = { e with aggregators := d.aggregators } := by
  have hregistry : e.aggregators.map (restored d.save) = d.aggregators := by
    apply Table.ext_get?
    · rw [Table.keys_map, ← keys_fresh, hfresh, keys_fresh]
    · intro name
      rw [Table.get?_map]
      cases hb : e.aggregators.get? name with
      | none =>
        have hnone := contains_of_fresh_eq hfresh name
        rw [Table.contains_eq_false_iff.mpr hb] at hnone
        exact (Table.contains_eq_false_iff.mp hnone.symm).symm
      | some b =>
        obtain ⟨a, ha, hreset⟩ := exists_reset_eq hfresh.symm hb
        have hstate : d.save.get? name = some a.state := by
          rw [save, Snapshot.get?, Table.get?_map, ha]
          rfl
        rw [ha, Option.map_some, restored, hstate]
        exact congrArg some (restore_of_reset_eq hreset.symm (hsound name a ha).kind_eq)
  rw [restore, hregistry]

/-- The aggregator under the name and the entry of the snapshot are of one kind. -/
def Matches (e : Engine) (s : Snapshot) (name : String) : Prop :=
  ∃ a state, e.aggregators.get? name = some a ∧ s.get? name = some state ∧ state.kind = a.kind

/-- The names of the aggregators that take their states from a snapshot. -/
def taken (e : Engine) (s : Snapshot) : List String :=
  (e.aggregators.entries.filter fun (name, a) => isSaved s name a).map Prod.fst

theorem isSaved_iff : isSaved s name a = true ↔ ∃ state, s.get? name = some state ∧ state.kind = a.kind := by
  simp [isSaved, Aggregator.fits, Option.any_eq_true]

theorem mem_taken_iff : name ∈ e.taken s ↔ e.Matches s name := by
  simp only [taken, List.mem_map, List.mem_filter, isSaved_iff, Prod.exists, exists_and_right, exists_eq_right,
    ← Table.get?_eq_some_iff, Matches, exists_and_left]

theorem nodup_taken (e : Engine) (s : Snapshot) : (e.taken s).Nodup :=
  e.aggregators.nodup_keys.sublist (List.filter_sublist.map Prod.fst)

theorem restore_result (e : Engine) (s : Snapshot) : (e.restore s).result = .ok (e.taken s).length := by
  rw [taken, List.length_map, ← List.countP_eq_length_filter]
  rfl

theorem taken_save (h : e.Sound) : e.taken e.save = e.aggregators.keys := by
  have hall : ∀ p ∈ e.aggregators.entries, isSaved e.save p.1 p.2 = true := by
    intro p hp
    have hget := Table.get?_eq_some_iff.mpr hp
    refine isSaved_iff.mpr ⟨p.2.state, ?_, (h p.1 p.2 hget).kind_eq⟩
    rw [save, Snapshot.get?, Table.get?_map, hget]
    rfl
  rw [taken, List.filter_eq_self.mpr hall]
  rfl

/-- What a snapshot leaves of an engine. It gives every aggregator its state and counts those that it has one for;
the states before do not matter, so that it has no more to give a second time. The engine's own snapshot gives
every aggregator the state that it has. All else is left as it is. -/
theorem Reachable.restoring (h : Reachable e) (s : Snapshot) :
    (∀ name a, e.aggregators.get? name = some a →
      (e.restore s).after.aggregators.get? name = some { a with state := stateFrom s name a.kind }) ∧
    (e.restore s).after.aggregators.keys = e.aggregators.keys ∧
    (e.restore s).after = { e with aggregators := (e.restore s).after.aggregators } ∧
    (∃ names : List String, names.Nodup ∧ (∀ name, name ∈ names ↔ e.Matches s name) ∧
      (e.restore s).result = .ok names.length) ∧
    (∀ d : Engine, fresh d.aggregators = fresh e.aggregators →
      (d.restore s).after.aggregators = (e.restore s).after.aggregators ∧
      (d.restore s).result = (e.restore s).result) ∧
    (e.restore s).after.restore s = e.restore s ∧
    (e.restore e.save).after = e ∧ (e.restore e.save).result = .ok e.aggregators.size := by
  refine ⟨fun name a ha => get?_restore ha, Table.keys_map _, rfl, ?_, ?_, restore_restore e s, ?_, ?_⟩
  · exact ⟨e.taken s, nodup_taken e s, fun name => mem_taken_iff, restore_result e s⟩
  · intro d hfresh
    rw [restore_congr hfresh]
    exact ⟨rfl, rfl⟩
  · exact restore_save rfl h.sound
  · rw [restore_result, taken_save h.sound, Table.length_keys]

/-- An engine with an aggregator of each kind that has seen an event. -/
def oneOfEach : Engine :=
  let spec := ((Specification.empty.withAggregator "n" everyEvent).withAggregator "seen"
    (.list [.atom (.text "select_if"), .atom (.bool true), .atom (.text "agg.n")])).withAggregator "m"
      (.list [.atom (.text "state_machine"), .atom (.number 1), .atom (.number 0)])
  (((Engine.new .any 8).update spec).after.track (.named "go")).after

/-- A state for no aggregator, one of the right kind, one of a wrong kind, and none for the machine. -/
def mixedStates : Snapshot :=
  ⟨((Table.empty.insert "x" (.reached 9)).insert "seen" (.selected (.text "old"))).insert "n" (.standing 2)⟩

theorem restoring_oneOfEach : Reachable oneOfEach ∧
    oneOfEach.save.states.entries = [("n", .reached 1), ("seen", .selected (.number 1)), ("m", .standing 1)] ∧
    (oneOfEach.restore mixedStates).after.save.states.entries =
      [("n", .reached 0), ("seen", .selected (.text "old")), ("m", .standing 0)] ∧
    (oneOfEach.restore mixedStates).result = .ok 1 ∧
    (oneOfEach.restore mixedStates).after.restore mixedStates = oneOfEach.restore mixedStates ∧
    (oneOfEach.restore oneOfEach.save).after = oneOfEach ∧
    (oneOfEach.restore oneOfEach.save).result = .ok 3 := by
  have hreach : Reachable oneOfEach := .track _ (.update _ (.new .any 8))
  obtain ⟨-, -, -, -, -, hagain, hafter, hresult⟩ := Reachable.restoring hreach mixedStates
  have hsize : oneOfEach.aggregators.size = 3 := by decide +kernel
  rw [hsize] at hresult
  exact ⟨hreach, by decide +kernel, by decide +kernel, by decide +kernel, hagain, hafter, hresult⟩

end EventFold.Engine
