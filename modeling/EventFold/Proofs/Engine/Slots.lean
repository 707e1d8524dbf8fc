import EventFold.Engine.Basic
import EventFold.Proofs.Aggregator.Moves
import EventFold.Proofs.Table

/-!
# An event goes slot by slot

The registry is a row of slots. `Taken` says which states an event leads the first slots to, each slot
seen against the registry as it is when its turn comes: new before it, old from it on. Tracking an event
takes as many slots as evaluate, all of them or those before the first failure, and touches nothing else.
-/

namespace EventFold

def Table.withStates (registry : Table Aggregator) (new : List State) : Table Aggregator :=
  registry.mapIdx fun i a => { a with state := new[i]?.getD a.state }

namespace Table

variable {registry : Table Aggregator} {new : List State} {name : String} {a : Aggregator} {i : Nat}

@[simp] theorem keys_withStates : (registry.withStates new).keys = registry.keys := keys_mapIdx _

@[simp] theorem size_withStates : (registry.withStates new).size = registry.size := size_mapIdx _

theorem getElem?_withStates : (registry.withStates new).entries[i]? =
    registry.entries[i]?.map fun e => (e.1, { e.2 with state := new[i]?.getD e.2.state }) :=
  getElem?_mapIdx _

@[simp] theorem withStates_nil : registry.withStates [] = registry := by
  apply ext_entries
  apply List.ext_getElem?
  intro i
  cases hi : registry.entries[i]? <;> simp [getElem?_withStates, hi]

theorem getElem?_withStates_of_le (hi : new.length ≤ i) :
    (registry.withStates new).entries[i]? = registry.entries[i]? := by
  rw [getElem?_withStates, List.getElem?_eq_none hi]
  cases registry.entries[i]? <;> rfl

/-- A registry that differs from another in states alone. -/
theorem eq_withStates {after : Table Aggregator} (hsize : after.size = registry.size)
    (h : ∀ (i : Nat) (name : String) (a : Aggregator), registry.entries[i]? = some (name, a) →
      ∃ s, after.entries[i]? = some (name, { a with state := s })) :
    after = registry.withStates (after.entries.map fun p => p.2.state) := by
  apply ext_entries
  apply List.ext_getElem?
  intro i
  rw [getElem?_withStates, List.getElem?_map]
  cases hi : registry.entries[i]? with
  | none =>
    rw [List.getElem?_eq_none_iff] at hi
    exact List.getElem?_eq_none (Nat.le_trans (Nat.le_of_eq hsize) hi)
  | some p =>
    obtain ⟨s, hs⟩ := h i p.1 p.2 hi
    rw [hs]
    rfl

theorem modify_withStates (h : registry.entries[new.length]? = some (name, a)) {f : Aggregator → Aggregator}
    {s : State} (hf : f a = { a with state := s }) :
    (registry.withStates new).modify name f = registry.withStates (new ++ [s]) := by
  apply ext_entries
  apply List.ext_getElem?
  intro i
  rw [modify, getElem?_map, getElem?_withStates, getElem?_withStates]
  cases hi : registry.entries[i]? with
  | none => rfl
  | some e =>
    obtain ⟨n, b⟩ := e
    by_cases hn : n = name
    · subst hn
      obtain rfl : i = new.length := index_unique hi h
      obtain ⟨-, rfl⟩ := Prod.mk.inj (Option.some.inj (hi.symm.trans h))
      simp [hf]
    · have hne : i ≠ new.length := by
        rintro rfl
        rw [hi] at h
        exact hn (Prod.mk.inj (Option.some.inj h)).1
      simp only [Option.map_some, hn, if_false, List.getElem?_append, List.getElem?_singleton]
      split
      · rfl
      · rename_i hlt
        rw [if_neg (by omega), List.getElem?_eq_none (by omega)]

/-- What expressions see of a registry when the slots before `i` are in new states and the others as they were. -/
theorem get?_values_withStates {j : Nat} (h : registry.entries[j]? = some (name, a)) (i : Nat) :
    (Aggregator.values (registry.withStates (new.take i))).get? name =
      some (if j < i then new[j]?.getD a.state else a.state).value := by
  apply get?_of_getElem? (i := j)
  rw [Aggregator.values, getElem?_map, getElem?_withStates, h]
  simp only [Option.map_some, List.getElem?_take, Aggregator.value]
  split <;> rfl

end Table

namespace Engine

/-- The state that an event leads an aggregator to when the registry is as given, with no call under way. -/
def transition (e : Engine) (event : Event) (registry : Table Aggregator) (a : Aggregator) :
    Except EvalError State :=
  ((a.move ⟨some event, e.vars, Aggregator.values registry, e.functions⟩).resultOn (.empty e.limit)).map
    fun m => m.next?.getD a.state

/-- The event leads the first slots of the registry to the given states. -/
def Taken (e : Engine) (event : Event) (registry : Table Aggregator) (new : List State) : Prop :=
  ∀ i s, new[i]? = some s → ∃ name a, registry.entries[i]? = some (name, a) ∧
    e.transition event (registry.withStates (new.take i)) a = .ok s

/-- Why the event takes no more slots: there is none, or the next one fails. -/
inductive Halted (e : Engine) (event : Event) (registry : Table Aggregator) (new : List State) :
    Option EvalError → Prop where
  | done : new.length = registry.size → Halted e event registry new none
  | failed {name : String} {a : Aggregator} {error : EvalError} :
    registry.entries[new.length]? = some (name, a) →
    e.transition event (registry.withStates new) a = .error error →
    Halted e event registry new (some error)

variable {e : Engine} {event : Event} {registry : Table Aggregator} {new : List State}

theorem taken_nil (e : Engine) (event : Event) (registry : Table Aggregator) :
    e.Taken event registry [] := by
  intro i s h
  simp at h

theorem Taken.snoc (h : e.Taken event registry new) {name : String} {a : Aggregator} {s : State}
    (ha : registry.entries[new.length]? = some (name, a))
    (hs : e.transition event (registry.withStates new) a = .ok s) :
    e.Taken event registry (new ++ [s]) := by
  intro i t ht
  rw [List.getElem?_append] at ht
  split at ht
  · rename_i hi
    obtain ⟨n, b, hb, hn⟩ := h i t ht
    refine ⟨n, b, hb, ?_⟩
    rwa [List.take_append_of_le_length (Nat.le_of_lt hi)]
  · rename_i hi
    rw [List.getElem?_singleton] at ht
    split at ht
    · obtain rfl : i = new.length := by omega
      cases ht
      refine ⟨name, a, ha, ?_⟩
      rwa [List.take_left]
    · cases ht

theorem Taken.length_le (h : e.Taken event registry new) : new.length ≤ registry.size := by
  rcases Nat.eq_zero_or_pos new.length with h0 | hpos
  · omega
  · obtain ⟨n, a, ha, -⟩ := h (new.length - 1) new[new.length - 1] (by simp)
    have := (List.getElem?_eq_some_iff.mp ha).1
    unfold Table.size
    omega

/-- A pass that has taken the first slots goes on to take as many as evaluate. By induction on the names
of the slots that are left; the pass holds the new states of those before. -/
theorem throughNames_slots (e : Engine) (event : Event) (registry : Table Aggregator) :
    ∀ (names : List String) (new : List State) (p : Pass),
      names = registry.keys.drop new.length → p.registry = registry.withStates new →
      p.stack = .empty e.limit → p.error = none → e.Taken event registry new →
      ∃ all, e.Taken event registry all ∧
        (Pass.throughNames (e.scope (some event)) names p).registry = registry.withStates all ∧
        e.Halted event registry all (Pass.throughNames (e.scope (some event)) names p).error
  | [], new, p, hnames, hreg, _, herr, htaken => by
    refine ⟨new, htaken, hreg, ?_⟩
    rw [Pass.throughNames, herr]
    apply Halted.done
    have hle := List.drop_eq_nil_iff.mp hnames.symm
    rw [Table.length_keys] at hle
    exact Nat.le_antisymm htaken.length_le hle
  | name :: rest, new, p, hnames, hreg, hstack, herr, htaken => by
    have hkey : registry.keys[new.length]? = some name := by
      rw [← List.head?_drop, ← hnames]
      rfl
    rw [Table.keys_getElem?, Option.map_eq_some_iff] at hkey
    obtain ⟨⟨n, a⟩, ha, rfl⟩ := hkey
    have hget : p.registry.get? n = some a := by
      rw [hreg]
      apply Table.get?_of_getElem? (i := new.length)
      rw [Table.getElem?_withStates_of_le (Nat.le_refl _), ha]
    have hrest : rest = registry.keys.drop (new.length + 1) := by
      rw [← List.drop_drop, ← hnames]
      rfl
    simp only [Pass.throughNames, hget]
    have hrun := (a.move_balanced ⟨some event, e.vars, Aggregator.values p.registry, e.functions⟩).run_eq
      p.stack
    rw [hstack] at hrun
    simp only [scope, hstack, hrun]
    cases hm : (a.move ⟨some event, e.vars, Aggregator.values p.registry, e.functions⟩).resultOn
        (.empty e.limit) with
    | error err =>
      refine ⟨new, htaken, hreg, ?_⟩
      refine Halted.failed ha ?_
      rw [transition, ← hreg, hm]
      rfl
    | ok m =>
      have hs : e.transition event (registry.withStates new) a = .ok (m.next?.getD a.state) := by
        rw [transition, ← hreg, hm]
        rfl
      refine throughNames_slots e event registry rest (new ++ [m.next?.getD a.state]) _ ?_ ?_ rfl herr
        (htaken.snoc ha hs)
      · rw [hrest, List.length_append, List.length_singleton]
      · rw [hreg]
        exact Table.modify_withStates (f := (·.moved m)) ha (Aggregator.moved_eq hm)

theorem passEvent_slots (e : Engine) (event : Event) {p : Pass} (hstack : p.stack = .empty e.limit)
    (herr : p.error = none) :
    ∃ new, e.Taken event p.registry new ∧
      (e.passEvent event p).registry = p.registry.withStates new ∧
      e.Halted event p.registry new (e.passEvent event p).error :=
  throughNames_slots e event p.registry p.registry.keys [] p rfl Table.withStates_nil.symm hstack herr
    (taken_nil e event p.registry)

/-- Tracking an event, slot by slot. The states `new` are those of the slots that evaluate: all slots, or
those before the first one that fails. The slot at `i` evaluates with no call under way and sees the new
states of the slots before it and the old ones of itself and those behind. The event is in the log in any
case, and apart from it and the states `new` the engine is as before. -/
theorem track_slotwise (e : Engine) (event : Event) :
    ∃ new : List State,
      (∀ i s, new[i]? = some s → ∃ name a, e.aggregators.entries[i]? = some (name, a) ∧
        e.transition event (e.aggregators.withStates (new.take i)) a = .ok s) ∧
      (∀ i j name a, e.aggregators.entries[j]? = some (name, a) →
        (Aggregator.values (e.aggregators.withStates (new.take i))).get? name =
          some (if j < i then new[j]?.getD a.state else a.state).value) ∧
      ((new.length = e.aggregators.size ∧ (e.track event).result = .ok ()) ∨
        ∃ name a error, e.aggregators.entries[new.length]? = some (name, a) ∧
          e.transition event (e.aggregators.withStates new) a = .error error ∧
          (e.track event).result = .error (.evaluation error)) ∧
      (e.track event).after =
        { e with events := e.events.push event, aggregators := e.aggregators.withStates new } := by
  obtain ⟨new, htaken, hreg, hhalt⟩ := e.passEvent_slots event (p := e.begin e.aggregators) rfl rfl
  refine ⟨new, htaken, ?_, ?_, ?_⟩
  · intro i j name a h
    exact Table.get?_values_withStates h i
  · simp only [track, Pass.result]
    generalize (e.passEvent event (e.begin e.aggregators)).error = error at hhalt
    cases hhalt with
    | done hall => exact .inl ⟨hall, rfl⟩
    | failed ha hfail => exact .inr ⟨_, _, _, ha, hfail, rfl⟩
  · simp only [track, hreg]
    rfl

end Engine

end EventFold
