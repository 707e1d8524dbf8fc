import EventFold.Proofs.Engine.Folding
import EventFold.Proofs.Engine.Updates
import EventFold.Proofs.Results

/-!
# Live states are replayed states

`Live` are the engines that a run without failures and without restored states comes to. In each of them
the aggregators stand where a replay of the whole log would put them, so a replay changes nothing: the log
and the tables determine the states.

The one thing that must not happen is an update that changes functions and nothing else, as such an update
replays nothing.
-/

namespace EventFold.Engine

/-- The engines of runs in which every call succeeds and none restores a snapshot. An update that replays
nothing must leave the functions as they are, unless no aggregator is registered. -/
inductive Live (names : Vocabulary) (limit : Nat) : Engine → Prop where
  | new : Live names limit (Engine.new names limit)
  | track {e : Engine} (event : Event) :
    Live names limit e → (e.track event).result = .ok () → Live names limit (e.track event).after
  | replay {e : Engine} :
    Live names limit e → e.replay.result = .ok () → Live names limit e.replay.after
  | update {e : Engine} {u : Update} (spec : Specification) :
    Live names limit e → (e.update spec).result = .ok u →
    (u.replayed = false → e.aggregators.isEmpty = true ∨
      ∀ name, (e.update spec).after.functions.get? name = e.functions.get? name) →
    Live names limit (e.update spec).after

def Settled (e : Engine) : Prop := e.Folds e.events.toList (fresh e.aggregators) e.aggregators

variable {e : Engine} {event : Event} {spec : Specification} {u : Update}

theorem settled_new (names : Vocabulary) (limit : Nat) : (Engine.new names limit).Settled := .nil _

theorem Settled.track (h : e.Settled) (hok : (e.track event).result = .ok ()) :
    (e.track event).after.Settled := by
  have hfold := Folds.snoc h (passes_of_track hok)
  have hevents : (e.track event).after.events.toList = e.events.toList ++ [event] :=
    Array.toList_push
  rw [Settled, hevents]
  exact Folds.congr (e := e) ⟨rfl, rfl, fun _ => rfl⟩ hfold.from_fresh

theorem settled_replay (hok : e.replay.result = .ok ()) : e.replay.after.Settled := by
  have hfold := folds_of_replay hok
  change e.replay.after.Folds e.events.toList (fresh e.replay.after.aggregators) _
  exact Folds.congr (e := e) ⟨rfl, rfl, fun _ => rfl⟩ hfold.from_fresh

theorem Settled.update (h : e.Settled) (hok : (e.update spec).result = .ok u)
    (hfun : u.replayed = false → e.aggregators.isEmpty = true ∨
      ∀ name, (e.update spec).after.functions.get? name = e.functions.get? name) :
    (e.update spec).after.Settled := by
  obtain ⟨bodies, -, ⟨-, -, hreplay, hafter⟩ | ⟨hstale, rfl, hafter⟩⟩ := update_eq_ok hok
  · rw [hafter]
    exact settled_replay hreplay
  · rw [aligned_of_not_stale hstale] at hafter
    have hfun := hfun rfl
    rw [hafter] at hfun ⊢
    rcases hfun with hempty | hsame
    · change Folds _ e.events.toList (fresh e.aggregators) e.aggregators
      rw [fresh_of_isEmpty hempty]
      exact folds_of_isEmpty hempty
    · exact Folds.congr (e := e) ⟨rfl, rfl, fun name => (hsame name).symm⟩ h

/-- By induction on the run. Only an update without a replay needs that the functions are the same. -/
theorem Live.settled {names : Vocabulary} {limit : Nat} (h : Live names limit e) : e.Settled := by
  induction h with
  | new => exact settled_new names limit
  | track event _ hok ih => exact ih.track hok
  | replay _ hok _ => exact settled_replay hok
  | update spec _ hok hfun ih => exact ih.update hok hfun

/-- In a live engine every aggregator is in the state that the log leads it to from the beginning, under the
tables that are in force now, and a replay finds nothing to change. -/
theorem Live.eq_replay {names : Vocabulary} {limit : Nat} (h : Live names limit e) :
    e.Folds e.events.toList (fresh e.aggregators) e.aggregators ∧
      e.replay.result = .ok () ∧ e.replay.after = e :=
  ⟨h.settled, replay_of_folds h.settled⟩

def counting : Specification :=
  (Specification.empty.withAggregator "n" (.list [.atom (.text "funnel"), .atom (.bool true)])).withAggregator
    "seen" (.list [.atom (.text "select_if"), .atom (.bool true), .atom (.text "agg.n")])

/-- The engine that has seen two events under `counting`, with a variable that came between them. -/
def counted : Engine :=
  let first := ((Engine.new .any 8).update counting).after
  let second := (first.track (.named "go")).after
  let third := (second.update (counting.withVariable "goal" (.number 2))).after
  (third.track (.named "go")).after

theorem live_counted : Live .any 8 counted := by
  refine .track _ (.update (u := ⟨true, [], [], [], true⟩) _ (.track _
    (.update (u := ⟨false, ["n", "seen"], [], [], true⟩) _ .new ?_ ?_) ?_) ?_ ?_) ?_
  · exact eq_ok_of_toOption (by decide +kernel)
  · intro h
    cases h
  · exact eq_ok_of_toOption (by decide +kernel)
  · exact eq_ok_of_toOption (by decide +kernel)
  · intro h
    cases h
  · exact eq_ok_of_toOption (by decide +kernel)

theorem eq_replay_counted : Live .any 8 counted ∧
    counted.aggregators.entries.map (fun p => (p.1, p.2.state)) =
      [("n", .reached 2), ("seen", .selected (.number 2))] ∧
    counted.Folds counted.events.toList (fresh counted.aggregators) counted.aggregators ∧
    counted.replay.result = .ok () ∧ counted.replay.after = counted :=
  ⟨live_counted, by decide +kernel, Live.eq_replay live_counted⟩

end EventFold.Engine
