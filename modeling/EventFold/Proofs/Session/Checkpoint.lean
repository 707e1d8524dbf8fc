import EventFold.Proofs.Engine.Restoring
import EventFold.Proofs.Session.Application
import EventFold.Proofs.Snapshot.Saved

/-!
# Checkpoints

The states of a session that has taken in a log can be saved and restored in another session with the same
specification. The other session then goes on with a second log as if it had taken in the first one too: its
aggregators are those of a session that takes in both logs, one behind the other.

This rests on the states being all that the events before have left behind, and on the text of a snapshot
holding all of them, which it does if their numbers are finite.
-/

namespace EventFold

namespace Session

variable {first second : ByteArray} {s a : Session}

theorem fromUTF8?_toUTF8 (text : String) : String.fromUTF8? text.toUTF8 = some text := by
  unfold String.fromUTF8?
  rw [String.toUTF8_eq_toByteArray, dif_pos text.isValidUTF8]
  rfl

theorem readFile_toUTF8 (path text : String) : readFile path (.ok text.toUTF8) = .ok text := by
  simp only [readFile, textOf, bind, Except.bind, fromUTF8?_toUTF8]
  rfl

/-- The file that a session writes brings its states into another one. -/
theorem restore_saved (path : String) (hfresh : Engine.fresh s.engine.aggregators = Engine.fresh a.engine.aggregators)
    (hsound : a.engine.Sound) (hreads : a.engine.save.ReadsBack)
    (hfinite : ∀ name state, a.engine.save.get? name = some state → state.isFinite = true) :
    (∃ n, (s.restore path (.ok a.engine.save.text.toUTF8)).result = .ok n) ∧
      (s.restore path (.ok a.engine.save.text.toUTF8)).after =
        { s with engine := { s.engine with aggregators := a.engine.aggregators } } := by
  have htext := (Snapshot.ofText_text_eq_self_iff hreads (some path)).mpr hfinite
  have hread : (do Snapshot.ofText (← readFile path (.ok a.engine.save.text.toUTF8)) (some path)) =
      Except.ok a.engine.save := by
    rw [readFile_toUTF8]
    exact htext
  rw [restore, hread]
  exact ⟨⟨_, rfl⟩, congrArg (fun e => { s with engine := e }) (Engine.restore_save hfresh hsound)⟩

/-- A session takes in a second log after its own states have been restored as if it had taken in the first. -/
theorem replay_restored (path : String) (hsound : s.engine.Sound) (hends : EndsLine first)
    (hfirst : IsText first) (hsecond : IsText second)
    (hreads : (s.replay first).after.engine.save.ReadsBack)
    (hfinite : ∀ name state, (s.replay first).after.engine.save.get? name = some state →
      state.isFinite = true) :
    (∃ n, (s.restore path (.ok (s.replay first).after.engine.save.text.toUTF8)).result = .ok n) ∧
      ((s.restore path (.ok (s.replay first).after.engine.save.text.toUTF8)).after.replay
          second).after.engine.aggregators = (s.replay (first ++ second)).after.engine.aggregators ∧
      ∃ t u, (s.replay first).result = .ok t ∧
        ((s.restore path (.ok (s.replay first).after.engine.save.text.toUTF8)).after.replay second).result =
          .ok u ∧
        (s.replay (first ++ second)).result = .ok ⟨t.events + u.events, t.errors + u.errors⟩ := by
  obtain ⟨t, u, ht, hu, hwhole, hwholeAfter⟩ := s.replay_append hends hfirst hsecond
  obtain ⟨hafter, -⟩ := s.replay_eq hfirst
  generalize s.replay first = a at ht hu hwholeAfter hreads hfinite hafter ⊢
  have hfresh : Engine.fresh s.engine.aggregators = Engine.fresh a.after.engine.aggregators := by
    rw [hafter, Engine.fresh_trackAll]
  have hsaved : a.after.engine.Sound := by
    rw [hafter]
    exact hsound.trackAll _
  obtain ⟨hloaded, hloadedAfter⟩ := restore_saved path hfresh hsaved hreads hfinite
  -- the restored session has not seen the first events, but it has their states
  have htables : ({ s.engine with aggregators := a.after.engine.aggregators } : Engine).SameTables
      a.after.engine := by
    rw [hafter, Engine.trackAll_eq]
    exact ⟨rfl, rfl, fun _ => rfl⟩
  obtain ⟨hresult, hsame⟩ := replay_congr
    (s := { s with engine := { s.engine with aggregators := a.after.engine.aggregators } })
    htables rfl hsecond
  refine ⟨hloaded, ?_⟩
  rw [hloadedAfter, hwholeAfter]
  exact ⟨hsame, t, u, ht, hresult.trans hu, hwhole⟩

/-- A session that restores the states another one has saved after a first log and goes on with a second log
comes to the aggregators that it would have come to with both logs, and the counts of the two add up. -/
theorem resume (c : Config) (spec : Specification) {α : Type} (path : String) (place : α)
    (hbodies : ∃ bodies, Engine.readFunctions c.catalog.vocabulary spec.functions.entries = .ok bodies)
    (hends : EndsLine first) (hfirst : IsText first) (hsecond : IsText second)
    (hreads : (((Session.new c).apply spec).after.replay first).after.engine.save.ReadsBack)
    (hfinite : ∀ name state,
      (((Session.new c).apply spec).after.replay first).after.engine.save.get? name = some state →
      state.isFinite = true) :
    let applied := ((Session.new c).apply spec).after
    let a := applied.replay first
    let whole := applied.replay (first ++ second)
    (∃ u, ((Session.new c).apply spec).result = .ok u) ∧
    ∃ text, (a.after.save path (.ok place)).result = .ok (place, text) ∧
      let loaded := applied.restore path (.ok text.toUTF8)
      let b := loaded.after.replay second
      (∃ n, loaded.result = .ok n) ∧
      b.after.engine.aggregators = whole.after.engine.aggregators ∧
      b.after.values = whole.after.values ∧
      b.after.engine.save.text = whole.after.engine.save.text ∧
      ∃ t u, a.result = .ok t ∧ b.result = .ok u ∧
        whole.result = .ok ⟨t.events + u.events, t.errors + u.errors⟩ := by
  obtain ⟨bodies, hbodies⟩ := hbodies
  obtain ⟨hok, -⟩ := apply_new c hbodies
  have hnew : (Session.new c).engine.Sound := Aggregator.allSound_empty _
  obtain ⟨hloaded, hsame, hcounts⟩ :=
    replay_restored path (hnew.update spec) hends hfirst hsecond hreads hfinite
  refine ⟨hok, _, rfl, hloaded, hsame, congrArg Aggregator.values hsame, ?_, hcounts⟩
  exact congrArg (fun registry => (Snapshot.mk (registry.map fun _ a => a.state)).text) hsame

/-- The session that is saved between the two logs. -/
def sumsBetween : Outcome Session Tally := sumsEarly.after.replay firstLines

theorem endsLine_firstLines : EndsLine firstLines := by decide +kernel

theorem isText_firstLines : IsText firstLines := by decide +kernel

theorem isText_lastLine : IsText lastLine := by decide +kernel

theorem states_sumsBetween : sumsBetween.after.engine.save.states.entries =
    [("n", .reached 2), ("sum", .selected (.number 2))] := by
  decide +kernel

theorem readsBack_sumsBetween : sumsBetween.after.engine.save.ReadsBack := by
  intro name state h
  have hmem := Table.get?_eq_some_iff.mp h
  rw [states_sumsBetween] at hmem
  rcases List.mem_cons.mp hmem with heq | hmem
  · cases heq
    trivial
  · cases List.mem_singleton.mp hmem
    exact fun _ => eq_ok_of_toOption (by decide +kernel)

theorem isFinite_sumsBetween (name : String) (state : State)
    (h : sumsBetween.after.engine.save.get? name = some state) : state.isFinite = true := by
  have hall : (sumsBetween.after.engine.save.states.entries.all fun e => e.2.isFinite) = true := by
    rw [states_sumsBetween]
    decide +kernel
  exact List.all_eq_true.mp hall _ (Table.get?_eq_some_iff.mp h)

theorem resume_sums :
    (∃ bodies, Engine.readFunctions Config.default.catalog.vocabulary sums.functions.entries = .ok bodies) ∧
    EndsLine firstLines ∧ IsText firstLines ∧ IsText lastLine ∧
    sumsBetween.after.engine.save.ReadsBack ∧
    sumsBetween.after.engine.save.states.entries = [("n", .reached 2), ("sum", .selected (.number 2))] ∧
    ∃ text, (sumsBetween.after.save "s.json" (.ok ())).result = .ok ((), text) ∧
      ((sumsEarly.after.restore "s.json" (.ok text.toUTF8)).after.replay lastLine).after.values =
        (sumsEarly.after.replay threeEvents).after.values ∧
      ∃ t u, sumsBetween.result = .ok t ∧
        ((sumsEarly.after.restore "s.json" (.ok text.toUTF8)).after.replay lastLine).result = .ok u ∧
        (sumsEarly.after.replay threeEvents).result =
          .ok ⟨t.events + u.events, t.errors + u.errors⟩ := by
  obtain ⟨-, text, hsaved, -, -, hvalues, -, hcounts⟩ := resume .default sums "s.json" () ⟨[], rfl⟩
    endsLine_firstLines isText_firstLines isText_lastLine readsBack_sumsBetween isFinite_sumsBetween
  exact ⟨⟨[], rfl⟩, endsLine_firstLines, isText_firstLines, isText_lastLine, readsBack_sumsBetween,
    states_sumsBetween, text, hsaved, hvalues, hcounts⟩

end Session

end EventFold
