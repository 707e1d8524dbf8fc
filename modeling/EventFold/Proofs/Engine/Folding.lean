import EventFold.Proofs.Engine.Slots

/-!
# Folding a log

`Passes` says that an event leads a registry to another one with no slot failing, `Folds` that the events
of a log do so one after the other. Both are relations of the tables of an engine alone: its log, its
registry and the spelling of its function table have no part in them. Tracking and replaying are then two
ways to the same relation.
-/

namespace EventFold.Engine

def Passes (e : Engine) (event : Event) (registry after : Table Aggregator) : Prop :=
  ∃ new, new.length = registry.size ∧ e.Taken event registry new ∧ after = registry.withStates new

/-- The events lead the registry to another one, in order and each through all slots. -/
inductive Folds (e : Engine) : List Event → Table Aggregator → Table Aggregator → Prop where
  | nil (registry : Table Aggregator) : Folds e [] registry registry
  | cons {event : Event} {rest : List Event} {registry next after : Table Aggregator} :
    e.Passes event registry next → Folds e rest next after → Folds e (event :: rest) registry after

variable {e : Engine} {event : Event} {events : List Event} {registry next after : Table Aggregator}
  {new more : List State} {error : Option EvalError} {p : Pass}

section Determined

theorem Taken.take_eq (h : e.Taken event registry new) (h' : e.Taken event registry more) {i : Nat}
    (hi : i ≤ new.length) (hi' : i ≤ more.length) : new.take i = more.take i := by
  induction i with
  | zero => rfl
  | succ i ih =>
    have heq := ih (by omega) (by omega)
    obtain ⟨n, a, ha, hs⟩ := h i new[i] (by simp)
    obtain ⟨m, b, hb, ht⟩ := h' i more[i] (by simp)
    obtain ⟨rfl, rfl⟩ := Prod.mk.inj (Option.some.inj (ha.symm.trans hb))
    rw [heq] at hs
    have hst : new[i] = more[i] := Except.ok.inj (hs.symm.trans ht)
    rw [List.take_succ_eq_append_getElem (by omega), List.take_succ_eq_append_getElem (by omega), heq, hst]

/-- No event goes on where it has halted. -/
theorem Halted.length_le (hh : e.Halted event registry new error) (h : e.Taken event registry new)
    (h' : e.Taken event registry more) : more.length ≤ new.length := by
  refine Nat.le_of_not_lt fun hlt => ?_
  obtain ⟨n, a, ha, hs⟩ := h' new.length more[new.length] (by simp)
  rw [← h.take_eq h' (Nat.le_refl _) (by omega), List.take_length] at hs
  cases hh with
  | done hall =>
    have := (List.getElem?_eq_some_iff.mp ha).1
    unfold Table.size at hall
    omega
  | failed hb hfail =>
    obtain ⟨rfl, rfl⟩ := Prod.mk.inj (Option.some.inj (ha.symm.trans hb))
    rw [hs] at hfail
    cases hfail

theorem Taken.unique (h : e.Taken event registry new) (hh : e.Halted event registry new error)
    (h' : e.Taken event registry more) {error' : Option EvalError}
    (hh' : e.Halted event registry more error') : new = more := by
  have hlen := Nat.le_antisymm (hh'.length_le h' h) (hh.length_le h h')
  have ht := h.take_eq h' (i := new.length) (Nat.le_refl _) (by omega)
  rwa [List.take_length, hlen, List.take_length] at ht

end Determined

section Passes

/-- The one state of a slot that an event leaves is found in all slots: nothing stays behind. -/
theorem passEvent_iff (hstack : p.stack = .empty e.limit) (herr : p.error = none) :
    ((e.passEvent event p).error = none ∧ (e.passEvent event p).registry = after) ↔
      e.Passes event p.registry after := by
  obtain ⟨new, htaken, hreg, hhalt⟩ := e.passEvent_slots event hstack herr
  constructor
  · rintro ⟨hnone, rfl⟩
    rw [hnone] at hhalt
    cases hhalt with
    | done hall => exact ⟨new, hall, htaken, hreg⟩
  · rintro ⟨more, hall, htaken', rfl⟩
    obtain rfl := htaken.unique hhalt htaken' (.done hall)
    refine ⟨?_, hreg⟩
    generalize (e.passEvent event p).error = error at hhalt
    cases hhalt with
    | done => rfl
    | failed ha =>
      rw [hall] at ha
      simp [Table.size] at ha

theorem passEvents_iff (herr : p.error = none) :
    ((e.passEvents events p).error = none ∧ (e.passEvents events p).registry = after) ↔
      e.Folds events p.registry after := by
  induction events generalizing p with
  | nil =>
    constructor
    · rintro ⟨-, rfl⟩
      exact .nil _
    · intro h
      cases h
      exact ⟨herr, rfl⟩
  | cons event rest ih =>
    have hpass : ∀ next,
        ((e.passEvent event { p with stack := .empty e.limit }).error = none ∧
          (e.passEvent event { p with stack := .empty e.limit }).registry = next) ↔
        e.Passes event p.registry next := fun next => passEvent_iff rfl herr
    simp only [passEvents]
    cases hq : (e.passEvent event { p with stack := .empty e.limit }).error with
    | some err =>
      constructor
      · rintro ⟨hnone, -⟩
        rw [hq] at hnone
        cases hnone
      · intro h
        cases h with
        | cons hfirst _ =>
          have hnone := ((hpass _).mpr hfirst).1
          rw [hq] at hnone
          cases hnone
    | none =>
      simp only
      rw [ih hq]
      constructor
      · exact fun h => .cons ((hpass _).mp ⟨hq, rfl⟩) h
      · intro h
        cases h with
        | cons hfirst hrest =>
          rw [((hpass _).mpr hfirst).2]
          exact hrest

end Passes

section Congruence

variable {d : Engine}

/-- The engines evaluate against the same tables, up to the order of the functions. -/
structure SameTables (e d : Engine) : Prop where
  limit : e.limit = d.limit
  vars : e.vars = d.vars
  functions : ∀ name, e.functions.get? name = d.functions.get? name

theorem SameTables.transition_eq (h : e.SameTables d) : e.transition = d.transition := by
  funext event registry a
  have hscope : Scope.Same ⟨some event, e.vars, Aggregator.values registry, e.functions⟩
      ⟨some event, d.vars, Aggregator.values registry, d.functions⟩ :=
    ⟨rfl, h.vars, rfl, h.functions⟩
  rw [transition, transition, Aggregator.move_congr hscope, h.limit]

/-- A pass sees the aggregators as they are when it gets to them, not those of the engine. -/
theorem SameTables.throughNames_eq (h : e.SameTables d) (event : Event) (names : List String) (p : Pass) :
    Pass.throughNames (e.scope (some event)) names p = Pass.throughNames (d.scope (some event)) names p := by
  induction names generalizing p with
  | nil => rfl
  | cons name rest ih =>
    have hscope : Scope.Same { e.scope (some event) with aggregators := Aggregator.values p.registry }
        { d.scope (some event) with aggregators := Aggregator.values p.registry } :=
      ⟨rfl, h.vars, rfl, h.functions⟩
    simp only [Pass.throughNames, Aggregator.move_congr hscope, ih]

theorem SameTables.passEvent_eq (h : e.SameTables d) : e.passEvent = d.passEvent := by
  funext event p
  exact h.throughNames_eq event p.registry.keys p

theorem SameTables.passEvents_eq (h : e.SameTables d) (events : List Event) (p : Pass) :
    e.passEvents events p = d.passEvents events p := by
  induction events generalizing p with
  | nil => rfl
  | cons event rest ih => simp only [passEvents, h.passEvent_eq, h.limit, ih]

theorem Passes.congr (h : e.SameTables d) (hp : e.Passes event registry after) :
    d.Passes event registry after := by
  obtain ⟨new, hall, htaken, rfl⟩ := hp
  refine ⟨new, hall, ?_, rfl⟩
  intro i s hs
  rw [← h.transition_eq]
  exact htaken i s hs

theorem Folds.congr (h : e.SameTables d) (hf : e.Folds events registry after) :
    d.Folds events registry after := by
  induction hf with
  | nil => exact .nil _
  | cons hp _ ih => exact .cons (hp.congr h) ih

theorem Folds.append {more : List Event} (h : e.Folds events registry next)
    (h' : e.Folds more next after) : e.Folds (events ++ more) registry after := by
  induction h with
  | nil => exact h'
  | cons hp _ ih => exact .cons hp (ih h')

theorem Folds.snoc (h : e.Folds events registry next) (hp : e.Passes event next after) :
    e.Folds (events ++ [event]) registry after :=
  h.append (.cons hp (.nil _))

theorem folds_of_isEmpty (h : registry.isEmpty = true) : e.Folds events registry registry := by
  have hnil : registry.entries = [] := List.isEmpty_iff.mp h
  induction events with
  | nil => exact .nil _
  | cons event rest ih =>
    refine .cons ⟨[], ?_, taken_nil e event registry, Table.withStates_nil.symm⟩ ih
    rw [Table.size, hnil]
    rfl

end Congruence

section Fresh

def fresh (registry : Table Aggregator) : Table Aggregator := registry.map fun _ a => a.reset

@[simp] theorem fresh_fresh : fresh (fresh registry) = fresh registry := Table.map_map _ _

theorem fresh_of_isEmpty (h : registry.isEmpty = true) : fresh registry = registry := by
  apply Table.ext_entries
  simp [fresh, Table.map, List.isEmpty_iff.mp h]

@[simp] theorem keys_fresh : (fresh registry).keys = registry.keys := Table.keys_map _

theorem get?_fresh {name : String} :
    (fresh registry).get? name = (registry.get? name).map Aggregator.reset :=
  Table.get?_map _

@[simp] theorem contains_fresh {name : String} : (fresh registry).contains name = registry.contains name := by
  rw [Table.contains, get?_fresh, Option.isSome_map, Table.contains]

theorem contains_of_fresh_eq (h : fresh next = fresh registry) (name : String) :
    next.contains name = registry.contains name := by
  rw [← contains_fresh, h, contains_fresh]

theorem exists_reset_eq {name : String} {a : Aggregator}
    (h : fresh next = fresh registry) (ha : registry.get? name = some a) :
    ∃ b, next.get? name = some b ∧ b.reset = a.reset := by
  have hget : (fresh next).get? name = (fresh registry).get? name := by rw [h]
  rw [get?_fresh, get?_fresh, ha] at hget
  exact Option.map_eq_some_iff.mp hget

theorem fresh_withStates : fresh (registry.withStates new) = fresh registry := by
  apply Table.ext_entries
  apply List.ext_getElem?
  intro i
  rw [fresh, fresh, Table.getElem?_map, Table.getElem?_map, Table.getElem?_withStates]
  cases registry.entries[i]? <;> rfl

/-- Events change states alone, so what a registry was before any event stays the same. -/
theorem Folds.fresh_eq (h : e.Folds events registry after) : fresh after = fresh registry := by
  induction h with
  | nil => rfl
  | cons hp _ ih =>
    obtain ⟨new, _, _, rfl⟩ := hp
    rw [ih, fresh_withStates]

theorem fresh_passEvent (hstack : p.stack = .empty e.limit) (herr : p.error = none) :
    fresh (e.passEvent event p).registry = fresh p.registry := by
  obtain ⟨new, -, hreg, -⟩ := e.passEvent_slots event hstack herr
  rw [hreg, fresh_withStates]

/-- The same holds of events that do not get through. -/
theorem fresh_passEvents (herr : p.error = none) :
    fresh (e.passEvents events p).registry = fresh p.registry := by
  induction events generalizing p with
  | nil => rfl
  | cons event rest ih =>
    have hfirst : fresh (e.passEvent event { p with stack := .empty e.limit }).registry = fresh p.registry :=
      fresh_passEvent rfl herr
    simp only [passEvents]
    split
    · exact hfirst
    · rename_i hnone
      rw [ih hnone, hfirst]

/-- A fold that began with some fresh registry began with its own. -/
theorem Folds.from_fresh (h : e.Folds events (fresh registry) after) :
    e.Folds events (fresh after) after := by
  have hfresh := h.fresh_eq
  rw [fresh_fresh] at hfresh
  rwa [hfresh]

end Fresh

section Following

theorem result_eq_ok_iff : p.result = .ok () ↔ p.error = none := by
  unfold Pass.result
  cases p.error <;> simp

theorem result_eq_error_iff {f : Failure} :
    p.result = .error f ↔ ∃ error, p.error = some error ∧ f = .evaluation error := by
  unfold Pass.result
  cases p.error <;> simp [eq_comm]

theorem fresh_track (e : Engine) (event : Event) :
    fresh (e.track event).after.aggregators = fresh e.aggregators :=
  fresh_passEvent (p := e.begin e.aggregators) rfl rfl

theorem passes_of_track (h : (e.track event).result = .ok ()) :
    e.Passes event e.aggregators (e.track event).after.aggregators :=
  (passEvent_iff (p := e.begin e.aggregators) rfl rfl).mp ⟨result_eq_ok_iff.mp h, rfl⟩

theorem folds_of_replay (h : e.replay.result = .ok ()) :
    e.Folds e.events.toList (fresh e.aggregators) e.replay.after.aggregators :=
  (passEvents_iff (p := e.begin (fresh e.aggregators)) rfl).mp ⟨result_eq_ok_iff.mp h, rfl⟩

theorem fresh_replay (e : Engine) : fresh e.replay.after.aggregators = fresh e.aggregators := by
  have hfresh : fresh e.replay.after.aggregators = fresh (fresh e.aggregators) :=
    fresh_passEvents (p := e.begin (fresh e.aggregators)) rfl
  rwa [fresh_fresh] at hfresh

/-- A replay begins with all aggregators reset, so it does not depend on the states that they are in. -/
theorem replay_congr (hfresh : fresh registry = fresh next) :
    ({ e with aggregators := registry } : Engine).replay.result =
        ({ e with aggregators := next } : Engine).replay.result ∧
      ({ e with aggregators := registry } : Engine).replay.after =
        ({ e with aggregators := next } : Engine).replay.after := by
  have htables : ({ e with aggregators := registry } : Engine).SameTables { e with aggregators := next } :=
    ⟨rfl, rfl, fun _ => rfl⟩
  have hpass : ({ e with aggregators := registry } : Engine).passEvents e.events.toList
        (e.begin (fresh registry)) =
      ({ e with aggregators := next } : Engine).passEvents e.events.toList (e.begin (fresh next)) := by
    rw [htables.passEvents_eq, hfresh]
  constructor
  · exact congrArg Pass.result hpass
  · exact congrArg (fun p : Pass => { e with aggregators := p.registry }) hpass

theorem replay_of_folds (h : e.Folds e.events.toList (fresh e.aggregators) after) :
    e.replay.result = .ok () ∧ e.replay.after = { e with aggregators := after } := by
  obtain ⟨hnone, hreg⟩ := (passEvents_iff (p := e.begin (fresh e.aggregators)) rfl).mpr h
  refine ⟨result_eq_ok_iff.mpr hnone, ?_⟩
  rw [← hreg]
  rfl

end Following

end EventFold.Engine
