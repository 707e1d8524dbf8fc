import EventFold.Engine.Saving
import EventFold.Proofs.Engine.Retrying

/-!
# Specifications that are applied again

A specification that an engine has taken over can be applied again at any later time. Events, replays and
restored snapshots change the log and the states, and a specification is compared with neither. So nothing is
found to be different: the report is empty but for the entries that are rejected each time, and the engine stays
as it is, also in states that no replay would come to.
-/

namespace EventFold.Engine

/-- The engines that events, replays and restored snapshots lead to, whether they succeed or fail. -/
inductive Onward (e : Engine) : Engine → Prop where
  | refl : Onward e e
  | track {d : Engine} (event : Event) : Onward e d → Onward e (d.track event).after
  | replay {d : Engine} : Onward e d → Onward e d.replay.after
  | restore {d : Engine} (s : Snapshot) : Onward e d → Onward e (d.restore s).after

/-- The engines differ in their events and in the states of their aggregators alone. -/
structure SameBasis (d e : Engine) : Prop where
  names : d.names = e.names
  limit : d.limit = e.limit
  vars : d.vars = e.vars
  functions : d.functions = e.functions
  fresh : fresh d.aggregators = fresh e.aggregators

variable {c d e : Engine} {spec : Specification} {u : Update}

theorem SameBasis.trans (h : c.SameBasis d) (h' : d.SameBasis e) : c.SameBasis e :=
  ⟨h.names.trans h'.names, h.limit.trans h'.limit, h.vars.trans h'.vars, h.functions.trans h'.functions,
    h.fresh.trans h'.fresh⟩

theorem track_sameBasis (e : Engine) (event : Event) : (e.track event).after.SameBasis e :=
  ⟨rfl, rfl, rfl, rfl, e.fresh_track event⟩

theorem replay_sameBasis (e : Engine) : e.replay.after.SameBasis e :=
  ⟨rfl, rfl, rfl, rfl, e.fresh_replay⟩

theorem reset_restored (s : Snapshot) (name : String) (a : Aggregator) : (restored s name a).reset = a.reset := by
  unfold restored
  split
  · unfold Aggregator.restore
    split <;> rfl
  · rfl

theorem restore_sameBasis (e : Engine) (s : Snapshot) : (e.restore s).after.SameBasis e := by
  refine ⟨rfl, rfl, rfl, rfl, ?_⟩
  apply Table.ext_get?
  · rw [keys_fresh, keys_fresh]
    exact Table.keys_map _
  · intro name
    rw [get?_fresh, get?_fresh, restore, Table.get?_map, Option.map_map]
    congr 1
    funext a
    exact reset_restored s name a

theorem Onward.reachable (h : Onward e d) (he : Reachable e) : Reachable d := by
  induction h with
  | refl => exact he
  | track event _ ih => exact ih.track event
  | replay _ ih => exact ih.replay
  | restore s _ ih => exact ih.restore s

/-- By induction on the run, of which no step touches a table or a source. -/
theorem Onward.sameBasis (h : Onward e d) : d.SameBasis e := by
  induction h with
  | refl => exact ⟨rfl, rfl, rfl, rfl, rfl⟩
  | @track d event _ ih => exact (d.track_sameBasis event).trans ih
  | @replay d _ ih => exact d.replay_sameBasis.trans ih
  | @restore d s _ ih => exact (d.restore_sameBasis s).trans ih

/-- What has been taken over of a specification is not stale, whatever events and states have come since. -/
theorem not_isStale_of_sameBasis (hdef : spec.IsDefinite) {functions : Table Expr}
    (h : d.SameBasis (c.aligned spec functions)) : d.isStale spec = false := by
  -- the log and the limit do not count, so `c` may as well have those of `d`
  have hd : d = { ({ c with events := d.events } : Engine).aligned spec functions with
      aggregators := d.aggregators } := by
    cases d
    simp only [aligned, Engine.mk.injEq, true_and, and_true]
    exact ⟨h.names, h.limit, h.vars, h.functions⟩
  rw [hd]
  exact not_isStale_again hdef h.fresh

theorem report_of_not_stale (hstale : c.isStale spec = false) :
    c.report spec false = ⟨false, [], [], (c.report spec false).rejected, false⟩ := by
  obtain ⟨hvars, hclean⟩ := Bool.or_eq_false_iff.mp hstale
  have hnothing := mt Reconciliation.run_dirty_iff.mpr (Bool.eq_false_iff.mp hclean)
  simp only [not_or, Classical.not_not] at hnothing
  obtain ⟨hchanged, hremoved, -⟩ := hnothing
  simp only [report, hvars, hchanged, hremoved]

/-- A specification that has been taken over is applied again after events, replays and restored snapshots. The
update succeeds, reports nothing but the entries that were rejected before, and leaves the engine as it is. -/
theorem Reachable.update_again (hc : Reachable c) (hdef : spec.IsDefinite)
    (hok : (c.update spec).result = .ok u) (hrun : Onward (c.update spec).after d) :
    (d.update spec).result = .ok ⟨false, [], [], u.rejected, false⟩ ∧ (d.update spec).after = d := by
  obtain ⟨bodies, hbodies, hafter⟩ := exists_aligned_of_update hok
  have hbasis : d.SameBasis (c.aligned spec (.ofList bodies)) := by
    refine hrun.sameBasis.trans ⟨?_, ?_, ?_, ?_, fresh_update hok⟩ <;> rw [hafter]
  have hnames : d.names = c.names := hbasis.names
  have hstale : d.isStale spec = false := not_isStale_of_sameBasis hdef hbasis
  obtain ⟨hresult, hsame⟩ := update_of_not_stale (hnames ▸ hbodies) hstale
  constructor
  · have hsound : d.Sound := (hrun.reachable (hc.update spec)).sound
    have hrejected : (d.report spec false).rejected = u.rejected := by
      rw [report_of_update hok, rejected_report hsound, rejected_report hc.sound, hnames]
    rw [hresult, report_of_not_stale hstale, hrejected]
  · rw [hsame, aligned_of_not_stale hstale, show Table.ofList bodies = d.functions from hbasis.functions.symm]

/-- A funnel, an entry without content, and a sum that needs a number. -/
def sumOfSteps : Specification :=
  (((Specification.empty.withVariable "step" (.number 1)).withAggregator "b" everyEvent).withAggregator "a"
    (.list [])).withAggregator "sum"
      (.list [.atom (.text "select_if"), .atom (.text "event.v"),
        .list [.atom (.text "+"), .atom (.text "event.v"), .atom (.text "var.step")]])

/-- A state that the log does not lead to and one of another kind than its aggregator. -/
def farStates : Snapshot :=
  ⟨(Table.empty.insert "b" (.reached 40)).insert "sum" (.reached 2)⟩

/-- The engine after an event that fails, a replay that fails at it, and the states. -/
def farAhead : Engine :=
  let failing := Event.empty.set "v" (.text "x")
  ((((threeFunnels.update sumOfSteps).after.track failing).after.replay).after.restore farStates).after

theorem update_again_farAhead : Reachable threeFunnels ∧ sumOfSteps.IsDefinite ∧
    (threeFunnels.update sumOfSteps).result = .ok ⟨true, ["sum"], ["d"], [("a", .emptyForm)], true⟩ ∧
    Onward (threeFunnels.update sumOfSteps).after farAhead ∧
    farAhead.replay.result = .error (.evaluation (.notANumber .add (.text "x"))) ∧
    farAhead.aggregators.entries.map (fun p => (p.1, p.2.state)) =
      [("b", .reached 40), ("sum", .selected .null)] ∧
    (farAhead.update sumOfSteps).result = .ok ⟨false, [], [], [("a", .emptyForm)], false⟩ ∧
    (farAhead.update sumOfSteps).after = farAhead := by
  have hok : (threeFunnels.update sumOfSteps).result = .ok ⟨true, ["sum"], ["d"], [("a", .emptyForm)], true⟩ := by
    decide +kernel
  have hdef : sumOfSteps.IsDefinite :=
    Specification.isDefinite_of_all (by decide +kernel) (by decide +kernel)
  have hreach : Reachable threeFunnels := .track _ (.update _ (.new .any 8))
  have hrun : Onward (threeFunnels.update sumOfSteps).after farAhead := .restore _ (.replay (.track _ .refl))
  exact ⟨hreach, hdef, hok, hrun, by decide +kernel, by decide +kernel, Reachable.update_again hreach hdef hok hrun⟩

end EventFold.Engine
