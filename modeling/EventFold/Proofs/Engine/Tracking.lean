import EventFold.Proofs.Engine.Folding
import EventFold.Proofs.Engine.Reachable

/-!
# Events one after the other

`trackAll` sends events through an engine one after the other and goes on when one of them fails; `failures`
are the failures on the way. What an event does depends on the tables and the states, and not on the events
that came before it.

A replay of the same events does not go on. As long as none fails it does the same; at the first one that
fails it stops, with that failure and with the states that this event leaves.
-/

namespace EventFold.Engine

def trackAll (e : Engine) (events : List Event) : Engine :=
  events.foldl (fun e event => (e.track event).after) e

/-- The failures of events that are sent through the engine one after the other, in order. -/
def failures (e : Engine) : List Event → List Failure
  | [] => []
  | event :: rest =>
    match (e.track event).result with
    | .ok () => failures (e.track event).after rest
    | .error f => f :: failures (e.track event).after rest

variable {e d : Engine} {event : Event} {events more before rest : List Event} {registry after : Table Aggregator}
  {p : Pass} {f : Failure}

theorem trackAll_append (e : Engine) (events more : List Event) :
    e.trackAll (events ++ more) = (e.trackAll events).trackAll more :=
  List.foldl_append

theorem failures_append (e : Engine) (events more : List Event) :
    e.failures (events ++ more) = e.failures events ++ (e.trackAll events).failures more := by
  induction events generalizing e with
  | nil => rfl
  | cons event rest ih =>
    simp only [List.cons_append, failures, ih]
    cases (e.track event).result <;> rfl

theorem failures_cons_eq_nil_iff : e.failures (event :: rest) = [] ↔
    (e.track event).result = .ok () ∧ (e.track event).after.failures rest = [] := by
  rw [failures]
  cases (e.track event).result <;> simp

theorem exists_first_failure (h : e.failures events ≠ []) :
    ∃ before event rest error, events = before ++ event :: rest ∧ e.failures before = [] ∧
      ((e.trackAll before).track event).result = .error (.evaluation error) := by
  induction events generalizing e with
  | nil => exact absurd rfl h
  | cons event rest ih =>
    cases hresult : (e.track event).result with
    | error f =>
      obtain ⟨error, -, rfl⟩ := result_eq_error_iff.mp hresult
      exact ⟨[], event, rest, error, rfl, rfl, hresult⟩
    | ok done =>
      have hrest : (e.track event).after.failures rest ≠ [] := fun hnil =>
        h (failures_cons_eq_nil_iff.mpr ⟨hresult, hnil⟩)
      obtain ⟨before, failing, behind, error, rfl, hbefore, hfail⟩ := ih hrest
      have hclean := failures_cons_eq_nil_iff.mpr ⟨hresult, hbefore⟩
      exact ⟨event :: before, failing, behind, error, rfl, hclean, hfail⟩

section Events

/-- Events change the log and the states, and nothing else. -/
theorem trackAll_eq (e : Engine) (events : List Event) : e.trackAll events =
    { e with events := e.events ++ events.toArray, aggregators := (e.trackAll events).aggregators } := by
  induction events generalizing e with
  | nil => simp [trackAll]
  | cons event rest ih =>
    have hstep : e.trackAll (event :: rest) = (e.track event).after.trackAll rest := rfl
    have hlog : (e.track event).after.events ++ rest.toArray = e.events ++ (event :: rest).toArray := by
      simp [track]
    rw [hstep, ← hlog]
    exact ih (e.track event).after

theorem track_sameTables (e : Engine) (event : Event) : (e.track event).after.SameTables e :=
  ⟨rfl, rfl, fun _ => rfl⟩

theorem trackAll_sameTables (e : Engine) (events : List Event) : (e.trackAll events).SameTables e := by
  rw [trackAll_eq]
  exact ⟨rfl, rfl, fun _ => rfl⟩

/-- Whatever came before, an event has the same effect. -/
theorem track_congr (h : e.SameTables d) (hsame : e.aggregators = d.aggregators) (event : Event) :
    (e.track event).result = (d.track event).result ∧
      (e.track event).after.aggregators = (d.track event).after.aggregators := by
  have hpass : e.passEvent event (e.begin e.aggregators) = d.passEvent event (d.begin d.aggregators) := by
    rw [h.passEvent_eq, begin, begin, h.limit, hsame]
  exact ⟨congrArg Pass.result hpass, congrArg Pass.registry hpass⟩

theorem trackAll_congr (h : e.SameTables d) (hsame : e.aggregators = d.aggregators) (events : List Event) :
    (e.trackAll events).SameTables (d.trackAll events) ∧
      (e.trackAll events).aggregators = (d.trackAll events).aggregators ∧
      e.failures events = d.failures events := by
  induction events generalizing e d with
  | nil => exact ⟨h, hsame, rfl⟩
  | cons event rest ih =>
    obtain ⟨hresult, hafter⟩ := track_congr h hsame event
    have htables : (e.track event).after.SameTables (d.track event).after := ⟨h.limit, h.vars, h.functions⟩
    obtain ⟨hend, hregistry, hfailures⟩ := ih htables hafter
    refine ⟨hend, hregistry, ?_⟩
    rw [failures, failures, hresult, hfailures]

theorem fresh_trackAll (e : Engine) (events : List Event) :
    fresh (e.trackAll events).aggregators = fresh e.aggregators := by
  induction events generalizing e with
  | nil => rfl
  | cons event rest ih => exact (ih (e.track event).after).trans (e.fresh_track event)

theorem Sound.trackAll (h : e.Sound) (events : List Event) : (e.trackAll events).Sound := by
  induction events generalizing e with
  | nil => exact h
  | cons event rest ih => exact ih (h.track event)

end Events

section NoFailure

theorem folds_trackAll (h : e.failures events = []) :
    e.Folds events e.aggregators (e.trackAll events).aggregators := by
  induction events generalizing e with
  | nil => exact .nil _
  | cons event rest ih =>
    obtain ⟨hok, hrest⟩ := failures_cons_eq_nil_iff.mp h
    have hfold := (ih hrest).congr (e.track_sameTables event)
    exact .cons (passes_of_track hok) hfold

theorem trackAll_of_folds (h : e.Folds events e.aggregators after) :
    e.failures events = [] ∧ (e.trackAll events).aggregators = after := by
  induction events generalizing e with
  | nil =>
    cases h
    exact ⟨rfl, rfl⟩
  | cons event rest ih =>
    cases h with
    | cons hpass hrest =>
      obtain ⟨hnone, rfl⟩ := (passEvent_iff (p := e.begin e.aggregators) rfl rfl).mpr hpass
      have htables : e.SameTables (e.track event).after := ⟨rfl, rfl, fun _ => rfl⟩
      obtain ⟨hclean, hafter⟩ := ih (hrest.congr htables)
      exact ⟨failures_cons_eq_nil_iff.mpr ⟨result_eq_ok_iff.mpr hnone, hclean⟩, hafter⟩

/-- Where nothing is registered nothing fails. -/
theorem trackAll_of_isEmpty (h : e.aggregators.isEmpty = true) (events : List Event) :
    e.failures events = [] ∧ (e.trackAll events).aggregators = e.aggregators :=
  trackAll_of_folds (folds_of_isEmpty h)

end NoFailure

section Replays

variable {q : Pass}

/-- The engine with its aggregators before any event. -/
def renewed (e : Engine) : Engine := { e with aggregators := fresh e.aggregators }

theorem renewed_sameTables (e : Engine) : e.renewed.SameTables e := ⟨rfl, rfl, fun _ => rfl⟩

theorem passEvents_append (h : (e.passEvents before p).error = none) :
    e.passEvents (before ++ more) p = e.passEvents more (e.passEvents before p) := by
  induction before generalizing p with
  | nil => rfl
  | cons event rest ih =>
    simp only [List.cons_append, passEvents] at h ⊢
    split
    · rename_i hfail
      rw [hfail] at h
      cases hfail.symm.trans h
    · rename_i hnone
      rw [hnone] at h
      exact ih h

theorem Halted.error_eq {new : List State} {error other : Option EvalError}
    (h : e.Halted event registry new error) (h' : e.Halted event registry new other) : error = other := by
  cases h with
  | done hall =>
    cases h' with
    | done => rfl
    | failed ha =>
      rw [hall] at ha
      simp [Table.size] at ha
  | failed ha hfail =>
    cases h' with
    | done hall =>
      rw [hall] at ha
      simp [Table.size] at ha
    | failed hb hfail' =>
      obtain ⟨rfl, rfl⟩ := Prod.mk.inj (Option.some.inj (ha.symm.trans hb))
      rw [Except.error.inj (hfail.symm.trans hfail')]

/-- What an event does to a registry does not depend on what was told before. -/
theorem passEvent_congr (event : Event) (hp : p.stack = .empty e.limit) (hq : q.stack = .empty e.limit)
    (hpe : p.error = none) (hqe : q.error = none) (h : p.registry = q.registry) :
    (e.passEvent event p).error = (e.passEvent event q).error ∧
      (e.passEvent event p).registry = (e.passEvent event q).registry := by
  obtain ⟨new, htaken, hreg, hhalt⟩ := e.passEvent_slots event hp hpe
  obtain ⟨more, htaken', hreg', hhalt'⟩ := e.passEvent_slots event hq hqe
  rw [h] at htaken hreg hhalt
  obtain rfl := htaken.unique hhalt htaken' hhalt'
  exact ⟨hhalt.error_eq hhalt', hreg.trans hreg'.symm⟩

theorem replay_eq_trackAll (h : e.renewed.failures e.events.toList = []) :
    e.replay.result = .ok () ∧
      e.replay.after = { e with aggregators := (e.renewed.trackAll e.events.toList).aggregators } :=
  replay_of_folds ((folds_trackAll h).congr e.renewed_sameTables)

/-- A replay stops where the first event fails. -/
theorem replay_of_first_failure (hlog : e.events.toList = before ++ event :: rest)
    (hbefore : e.renewed.failures before = [])
    (hfail : ((e.renewed.trackAll before).track event).result = .error f) :
    e.replay.result = .error f ∧ e.replay.after =
      { e with aggregators := ((e.renewed.trackAll before).track event).after.aggregators } := by
  have hfold := (folds_trackAll hbefore).congr e.renewed_sameTables
  obtain ⟨hnone, hreg⟩ := (passEvents_iff (p := e.begin (fresh e.aggregators)) rfl).mpr hfold
  have htables : (e.renewed.trackAll before).SameTables e.renewed := e.renewed.trackAll_sameTables before
  generalize e.renewed.trackAll before = d at htables hfail hreg ⊢
  -- the event meets the same registry in the replay and when it is tracked
  obtain ⟨hsame, hsameRegistry⟩ := passEvent_congr (e := e) event
    (p := { e.passEvents before (e.begin (fresh e.aggregators)) with stack := .empty e.limit })
    (q := d.begin d.aggregators) rfl (by rw [begin, htables.limit]; rfl) hnone rfl hreg
  have hpass : d.passEvent = e.passEvent := htables.passEvent_eq.trans e.renewed_sameTables.passEvent_eq
  rw [← hpass] at hsame hsameRegistry
  obtain ⟨error, herror, rfl⟩ := result_eq_error_iff.mp hfail
  have hstop : e.passEvents e.events.toList (e.begin (fresh e.aggregators)) =
      d.passEvent event { e.passEvents before (e.begin (fresh e.aggregators)) with stack := .empty e.limit } := by
    rw [hlog, passEvents_append hnone]
    simp only [passEvents, ← hpass, hsame, herror]
  constructor
  · refine (congrArg Pass.result hstop).trans ?_
    rw [Pass.result, hsame, herror]
  · refine (congrArg (fun p : Pass => { e with aggregators := p.registry }) hstop).trans ?_
    simp only [hsameRegistry]
    rfl

end Replays

section Updates

variable {spec : Specification} {bodies : List (String × Expr)}

/-- The engine that takes over a specification, before any event. -/
def begun (e : Engine) (spec : Specification) (bodies : List (String × Expr)) : Engine :=
  (e.aligned spec (.ofList bodies)).renewed

theorem begun_of_not_stale (h : e.aggregators.isEmpty = true) (hstale : e.isStale spec = false) :
    e.begun spec bodies = e.aligned spec (.ofList bodies) ∧
      (e.begun spec bodies).aggregators.isEmpty = true := by
  rw [begun, aligned_of_not_stale hstale, renewed, fresh_of_isEmpty h]
  exact ⟨rfl, h⟩

/-- An update comes to the states that the log leads to, if no event of it fails. -/
theorem update_of_clean (hempty : e.aggregators.isEmpty = true)
    (hbodies : readFunctions e.names spec.functions.entries = .ok bodies)
    (hclean : (e.begun spec bodies).failures e.events.toList = []) :
    (∃ u, (e.update spec).result = .ok u) ∧ (e.update spec).after =
      { e.begun spec bodies with
        aggregators := ((e.begun spec bodies).trackAll e.events.toList).aggregators } := by
  cases hstale : e.isStale spec with
  | true =>
    obtain ⟨hresult, hafter⟩ := update_of_stale hbodies hstale
    obtain ⟨hreplay, hreplayAfter⟩ := replay_eq_trackAll (e := e.aligned spec (.ofList bodies)) hclean
    rw [hreplay] at hresult
    exact ⟨⟨_, hresult⟩, hafter.trans hreplayAfter⟩
  | false =>
    obtain ⟨hresult, hafter⟩ := update_of_not_stale hbodies hstale
    obtain ⟨hbegun, hnone⟩ := begun_of_not_stale hempty hstale
    refine ⟨⟨_, hresult⟩, ?_⟩
    rw [hafter, (trackAll_of_isEmpty hnone _).2, hbegun]

/-- An update fails where an event of the log fails. -/
theorem update_of_first_failure (hempty : e.aggregators.isEmpty = true)
    (hbodies : readFunctions e.names spec.functions.entries = .ok bodies)
    (hlog : e.events.toList = before ++ event :: rest)
    (hbefore : (e.begun spec bodies).failures before = [])
    (hfail : (((e.begun spec bodies).trackAll before).track event).result = .error f) :
    (e.update spec).result = .error f ∧ (e.update spec).after =
      { e.begun spec bodies with
        aggregators := (((e.begun spec bodies).trackAll before).track event).after.aggregators } := by
  cases hstale : e.isStale spec with
  | true =>
    obtain ⟨hresult, hafter⟩ := update_of_stale hbodies hstale
    obtain ⟨hreplay, hreplayAfter⟩ :=
      replay_of_first_failure (e := e.aligned spec (.ofList bodies)) hlog hbefore hfail
    rw [hreplay] at hresult
    exact ⟨hresult, hafter.trans hreplayAfter⟩
  | false =>
    -- nothing would be registered, so nothing could fail
    have hnone : (e.begun spec bodies).aggregators.isEmpty = true := (begun_of_not_stale hempty hstale).2
    have hclean := (trackAll_of_isEmpty hnone (before ++ [event])).1
    rw [failures_append, List.append_eq_nil_iff, failures_cons_eq_nil_iff, hfail] at hclean
    cases hclean.2.1

end Updates

end EventFold.Engine
