import EventFold.Proofs.Session.Replay

/-!
# Specifications that come early and late

A specification can be applied before an event log is taken in or after it. The two ways agree as long as no
event of the log fails. An event that fails is counted and passed over when the log is taken in under the
specification; when the specification comes later it makes the update fail, and the log goes no further.
-/

namespace EventFold

namespace Engine

variable {spec : Specification} {bodies : List (String × Expr)}

/-- A new engine has seen no events, so nothing can fail when it takes over a specification. -/
theorem update_new {names : Vocabulary} (limit : Nat)
    (hbodies : readFunctions names spec.functions.entries = .ok bodies) :
    (∃ u, ((new names limit).update spec).result = .ok u) ∧
      ((new names limit).update spec).after = (new names limit).begun spec bodies :=
  update_of_clean (e := new names limit) rfl hbodies rfl

/-- Before any specification events are kept in the log and do nothing else. -/
theorem trackAll_new (names : Vocabulary) (limit : Nat) (events : List Event) :
    (new names limit).trackAll events = { new names limit with events := events.toArray } := by
  rw [trackAll_eq, (trackAll_of_isEmpty (e := new names limit) rfl events).2]
  simp [new]

/-- A specification that comes after some events, seen from the engine `early` that it found before them. -/
theorem update_trackAll_new {names : Vocabulary} (limit : Nat) (events : List Event)
    (hbodies : readFunctions names spec.functions.entries = .ok bodies) {early : Engine}
    (hearly : early = (new names limit).begun spec bodies) :
    (early.failures events = [] ∧
      (∃ u, (((new names limit).trackAll events).update spec).result = .ok u) ∧
      (((new names limit).trackAll events).update spec).after = early.trackAll events) ∨
    ∃ before event rest error, events = before ++ event :: rest ∧ early.failures before = [] ∧
      ((early.trackAll before).track event).result = .error (.evaluation error) ∧
      (((new names limit).trackAll events).update spec).result = .error (.evaluation error) ∧
      (((new names limit).trackAll events).update spec).after.aggregators =
        ((early.trackAll before).track event).after.aggregators := by
  rw [trackAll_new]
  generalize hbase : ({ new names limit with events := events.toArray } : Engine) = base
  have hempty : base.aggregators.isEmpty = true := by
    rw [← hbase]
    rfl
  have hnames : readFunctions base.names spec.functions.entries = .ok bodies := by
    rw [← hbase]
    exact hbodies
  have hbegun : base.begun spec bodies = { early with events := events.toArray } := by
    rw [hearly, ← hbase]
    rfl
  have hlog : base.events.toList = events := by rw [← hbase]
  have htables : (base.begun spec bodies).SameTables early := by
    rw [hbegun]
    exact ⟨rfl, rfl, fun _ => rfl⟩
  have hregistry : (base.begun spec bodies).aggregators = early.aggregators := by rw [hbegun]
  by_cases hclean : early.failures events = []
  · obtain ⟨-, hsame, hfailures⟩ := trackAll_congr htables hregistry events
    obtain ⟨hok, hafter⟩ := update_of_clean hempty hnames (by rw [hlog, hfailures, hclean])
    refine .inl ⟨hclean, hok, ?_⟩
    rw [hafter, hlog, hsame, trackAll_eq early, hbegun, hearly]
    simp [begun, renewed, aligned, new]
  · obtain ⟨before, event, rest, error, hevents, hbefore, hfail⟩ := exists_first_failure hclean
    obtain ⟨htables', hsame, hfailures⟩ := trackAll_congr htables hregistry before
    obtain ⟨hresult, hafter⟩ := track_congr htables' hsame event
    obtain ⟨herror, hlast⟩ := update_of_first_failure hempty hnames (hlog.trans hevents)
      (hfailures.trans hbefore) (hresult.trans hfail)
    refine .inr ⟨before, event, rest, error, hevents, hbefore, hfail, herror, ?_⟩
    rw [hlast]
    exact hafter

end Engine

namespace Session

variable {spec : Specification} {bodies : List (String × Expr)}

theorem apply_new (c : Config)
    (hbodies : Engine.readFunctions c.catalog.vocabulary spec.functions.entries = .ok bodies) :
    (∃ u, ((Session.new c).apply spec).result = .ok u) ∧ ((Session.new c).apply spec).after =
      { Session.new c with engine := (Session.new c).engine.begun spec bodies } := by
  obtain ⟨hok, hafter⟩ := Engine.update_new c.maxCallDepth hbodies
  refine ⟨hok, ?_⟩
  rw [apply, show (Session.new c).engine = .new c.catalog.vocabulary c.maxCallDepth from rfl, hafter]

/-- A specification that is applied after an event log, compared with one that is applied before. If no event
of the log fails the two sessions are the same in the end. Otherwise the late application fails with the
failure of the first event that fails, and the aggregators are as this event left them in the other session. -/
theorem apply_after_replay (c : Config) (spec : Specification) (content : ByteArray)
    (hbodies : ∃ bodies, Engine.readFunctions c.catalog.vocabulary spec.functions.entries = .ok bodies)
    (htext : IsText content) :
    let early := (Session.new c).apply spec
    let live := early.after.replay content
    let base := (Session.new c).replay content
    let late := base.after.apply spec
    let events := eventsOf content
    (∃ u, early.result = .ok u) ∧
    (∃ t, base.result = .ok t ∧ live.result =
      .ok { t with errors := t.errors + (early.after.engine.failures events).length }) ∧
    ((early.after.engine.failures events = [] ∧ (∃ u, late.result = .ok u) ∧ late.after = live.after) ∨
      ∃ before event rest error, events = before ++ event :: rest ∧
        early.after.engine.failures before = [] ∧
        ((early.after.engine.trackAll before).track event).result = .error (.evaluation error) ∧
        late.result = .error (.evaluation error) ∧
        late.after.values = ((early.after.engine.trackAll before).track event).after.values) := by
  obtain ⟨bodies, hbodies⟩ := hbodies
  obtain ⟨hok, hearly⟩ := apply_new c hbodies
  obtain ⟨hbase, hbaseResult⟩ := (Session.new c).replay_eq htext
  obtain ⟨hlive, hliveResult⟩ := ((Session.new c).apply spec).after.replay_eq htext
  intro early live base late events
  have hclean : (Session.new c).engine.failures events = [] :=
    (Engine.trackAll_of_isEmpty (e := (Session.new c).engine) rfl events).1
  refine ⟨hok, ⟨_, hbaseResult, ?_⟩, ?_⟩
  · rw [hliveResult, hclean]
    rfl
  · have hengine : early.after.engine = (Session.new c).engine.begun spec bodies := by rw [hearly]
    have hlate : late = apply { Session.new c with engine := (Session.new c).engine.trackAll events } spec :=
      congrArg (fun s : Session => s.apply spec) hbase
    rcases Engine.update_trackAll_new c.maxCallDepth events hbodies hengine with
      ⟨hnone, haccepted, hafter⟩ | ⟨before, event, rest, error, hevents, hbefore, hfail, herror, hlast⟩
    · refine .inl ⟨hnone, ?_, ?_⟩
      · rw [hlate]
        exact haccepted
      · have hboth : late.after = { Session.new c with engine := early.after.engine.trackAll events } := by
          rw [hlate, ← hafter]
          rfl
        rw [hboth]
        exact hlive.symm
    · refine .inr ⟨before, event, rest, error, hevents, hbefore, hfail, ?_, ?_⟩
      · rw [hlate]
        exact herror
      · rw [hlate]
        exact congrArg Aggregator.values hlast

/-- A count of events and, behind it, a sum that needs a number. -/
def sums : Specification :=
  (Specification.empty.withAggregator "n" (.list [.atom (.text "funnel"), .atom (.bool true)])).withAggregator
    "sum" (.list [.atom (.text "select_if"), .atom (.bool true),
      .list [.atom (.text "+"), .atom (.text "event.v"), .atom (.number 1)]])

/-- Two events, of which the second has no number, and a line that is none. -/
def firstLines : ByteArray := "\x7b\"v\": 1\x7d\n\x7b\"v\": \"x\"\x7d\n?\n".toUTF8

def lastLine : ByteArray := "\x7b\"v\": 2\x7d".toUTF8

def threeEvents : ByteArray := firstLines ++ lastLine

def sumsEarly : Outcome Session Update := (Session.new .default).apply sums

def sumsLate : Outcome Session Update := ((Session.new .default).replay threeEvents).after.apply sums

theorem isText_threeEvents : IsText threeEvents := by decide +kernel

theorem apply_after_replay_sums :
    (∃ bodies, Engine.readFunctions Config.default.catalog.vocabulary sums.functions.entries = .ok bodies) ∧
    IsText threeEvents ∧
    ∃ before event rest error, eventsOf threeEvents = before ++ event :: rest ∧
      sumsEarly.after.engine.failures before = [] ∧
      ((sumsEarly.after.engine.trackAll before).track event).result = .error (.evaluation error) ∧
      sumsLate.result = .error (.evaluation error) ∧
      sumsLate.after.values = ((sumsEarly.after.engine.trackAll before).track event).after.values := by
  refine ⟨⟨[], rfl⟩, isText_threeEvents, ?_⟩
  obtain ⟨-, -, ⟨hclean, -, -⟩ | hfails⟩ :=
    apply_after_replay .default sums threeEvents ⟨[], rfl⟩ isText_threeEvents
  · exact absurd hclean (by decide +kernel)
  · exact hfails

/-- With an event that fails the two ways differ: the late application fails, and the states are not those of the
session that had the specification from the beginning. -/
theorem sumsLate_ne_live :
    (∃ bodies, Engine.readFunctions Config.default.catalog.vocabulary sums.functions.entries = .ok bodies) ∧
    IsText threeEvents ∧
    sumsEarly.result = .ok ⟨false, ["n", "sum"], [], [], true⟩ ∧
    sumsLate.result = .error (.evaluation (.notANumber .add (.text "x"))) ∧
    sumsLate.after.values.entries = [("n", .number 2), ("sum", .number 2)] ∧
    (sumsEarly.after.replay threeEvents).after.values.entries = [("n", .number 3), ("sum", .number 3)] :=
  ⟨⟨[], rfl⟩, isText_threeEvents, by decide +kernel, by decide +kernel, by decide +kernel, by decide +kernel⟩

end Session

end EventFold
