import EventFold.Proofs.Engine.Tracking

/-!
# Aggregators that keep to themselves

A registry is independent if no aggregator refers to another one, neither in its own expressions nor in the
functions that they come to call. Each aggregator of such a registry goes through an event as if it were alone,
so a pass is known slot by slot without regard to the order of the slots (`passes_iff`). A part of the registry
then goes the way that it goes within the whole, in whatever order its aggregators stand.
-/

namespace EventFold.Engine

open EventFold.Expr (Involves withBodies)

/-- No aggregator refers to another one that is registered, not even in the functions that it involves. -/
def Independent (e : Engine) (registry : Table Aggregator) : Prop :=
  ∀ name a, registry.get? name = some a → ∀ expr, Involves e.functions a.rule.exprs expr →
    ∀ other ∈ expr.aggregators, other = name ∨ registry.get? other = none

variable {e : Engine} {event : Event} {registry next after part : Table Aggregator} {name : String} {a : Aggregator}
  {new : List State}

/-- A criterion that can be computed, given the names of the functions that each aggregator involves. -/
theorem independent_of_withBodies (names : String → List String)
    (h : ∀ p ∈ registry.entries, ∀ expr ∈ withBodies e.functions (names p.1) p.2.rule.exprs,
      (∀ function ∈ expr.callees, function ∈ names p.1) ∧ ∀ other ∈ expr.aggregators, other = p.1) :
    e.Independent registry := by
  intro name a ha expr hexpr other hother
  have hentry := h (name, a) (Table.get?_eq_some_iff.mp ha)
  have hmem := hexpr.mem_withBodies fun expr hexpr => (hentry expr hexpr).1
  exact .inl ((hentry expr hmem).2 other hother)

section OneEvent

/-- What an aggregator goes to depends on the others only through which names are registered at all. -/
theorem Independent.transition_eq (h : e.Independent registry) (ha : registry.get? name = some a)
    (hvalue : (Aggregator.values next).get? name = some a.value)
    (hnone : ∀ other, registry.get? other = none → next.get? other = none) :
    e.transition event next a = e.transition event registry a := by
  have hagree : Scope.Agree ⟨some event, e.vars, Aggregator.values next, e.functions⟩
      ⟨some event, e.vars, Aggregator.values registry, e.functions⟩
      fun other => other = name ∨ registry.get? other = none := by
    refine ⟨rfl, rfl, fun _ => rfl, ?_⟩
    rintro other (rfl | hother)
    · rw [hvalue, Aggregator.values, Table.get?_map, ha, Option.map_some, Aggregator.value]
    · simp only [Aggregator.values, Table.get?_map, hother, hnone other hother]
  have hmove := Aggregator.move_eq_of_eval_eq fun expr hexpr =>
    hagree.eval_eq (h name a ha) hexpr
  rw [transition, transition, hmove]

theorem get?_withStates_eq_none {other : String} (h : registry.get? other = none) :
    (registry.withStates new).get? other = none := by
  rw [← Option.not_isSome_iff_eq_none, Table.get?_isSome_iff] at h ⊢
  rwa [Table.keys_withStates]

/-- Slots that go through an event one after the other go through it as they would alone. -/
theorem Independent.taken_iff (h : e.Independent registry) : e.Taken event registry new ↔
    ∀ (i : Nat) (s : State), new[i]? = some s → ∃ name a, registry.entries[i]? = some (name, a) ∧
      e.transition event registry a = .ok s := by
  have hsame : ∀ (i : Nat) (name : String) (a : Aggregator), registry.entries[i]? = some (name, a) →
      e.transition event (registry.withStates (new.take i)) a = e.transition event registry a := by
    intro i name a ha
    refine h.transition_eq (Table.get?_of_getElem? ha) ?_ fun other => get?_withStates_eq_none
    rw [Table.get?_values_withStates ha, if_neg (Nat.lt_irrefl i)]
    rfl
  refine forall_congr' fun i => forall_congr' fun s => imp_congr_right fun _ => ?_
  refine exists_congr fun name => exists_congr fun a => and_congr_right fun ha => ?_
  rw [hsame i name a ha]

/-- A pass through an independent registry, slot by slot. -/
theorem Independent.passes_slotwise (h : e.Independent registry) : e.Passes event registry after ↔
    after.keys = registry.keys ∧ ∀ (i : Nat) (name : String) (a : Aggregator),
      registry.entries[i]? = some (name, a) → ∃ s, e.transition event registry a = .ok s ∧
        after.entries[i]? = some (name, { a with state := s }) := by
  constructor
  · rintro ⟨new, hall, htaken, rfl⟩
    refine ⟨Table.keys_withStates, ?_⟩
    intro i name a ha
    have hlt : i < new.length := by
      rw [hall]
      exact (List.getElem?_eq_some_iff.mp ha).1
    have hs := List.getElem?_eq_getElem hlt
    obtain ⟨m, b, hb, htrans⟩ := h.taken_iff.mp htaken i new[i] hs
    obtain ⟨rfl, rfl⟩ := Prod.mk.inj (Option.some.inj (ha.symm.trans hb))
    refine ⟨new[i], htrans, ?_⟩
    rw [Table.getElem?_withStates, ha, hs]
    rfl
  · rintro ⟨hkeys, hslots⟩
    have hsize : after.size = registry.size := by rw [← Table.length_keys, hkeys, Table.length_keys]
    refine ⟨after.entries.map fun p => p.2.state, by rwa [List.length_map], h.taken_iff.mpr ?_, ?_⟩
    · intro i s hs
      rw [List.getElem?_map, Option.map_eq_some_iff] at hs
      obtain ⟨⟨name, b⟩, hb, rfl⟩ := hs
      have hkey : registry.keys[i]? = some name := by rw [← hkeys, Table.keys_getElem?, hb, Option.map_some]
      rw [Table.keys_getElem?, Option.map_eq_some_iff] at hkey
      obtain ⟨⟨name, a⟩, ha, rfl⟩ := hkey
      obtain ⟨s, hs, hget⟩ := hslots i name a ha
      obtain ⟨-, rfl⟩ := Prod.mk.inj (Option.some.inj (hb.symm.trans hget))
      exact ⟨name, a, ha, hs⟩
    · refine Table.eq_withStates hsize fun i name a ha => ?_
      obtain ⟨s, -, hget⟩ := hslots i name a ha
      exact ⟨s, hget⟩

/-- A pass through an independent registry, name by name. -/
theorem Independent.passes_iff (h : e.Independent registry) : e.Passes event registry after ↔
    after.keys = registry.keys ∧ ∀ name a, registry.get? name = some a →
      ∃ s, e.transition event registry a = .ok s ∧ after.get? name = some { a with state := s } := by
  rw [h.passes_slotwise]
  refine and_congr_right fun hkeys => ?_
  constructor
  · intro hslots name a ha
    obtain ⟨i, hi⟩ := List.mem_iff_getElem?.mp (Table.get?_eq_some_iff.mp ha)
    obtain ⟨s, hs, hget⟩ := hslots i name a hi
    exact ⟨s, hs, Table.get?_of_getElem? hget⟩
  · intro hnames i name a ha
    obtain ⟨s, hs, hget⟩ := hnames name a (Table.get?_of_getElem? ha)
    exact ⟨s, hs, Table.getElem?_of_keys_eq hkeys ha hget⟩

end OneEvent

section Parts

theorem get?_of_subset (hpart : part.entries ⊆ registry.entries) (ha : part.get? name = some a) :
    registry.get? name = some a :=
  Table.get?_eq_some_iff.mpr (hpart (Table.get?_eq_some_iff.mp ha))

theorem get?_eq_none_of_subset (hpart : part.entries ⊆ registry.entries) (h : registry.get? name = none) :
    part.get? name = none := by
  cases ha : part.get? name with
  | none => rfl
  | some a => cases h.symm.trans (get?_of_subset hpart ha)

theorem Independent.of_subset (h : e.Independent registry) (hpart : part.entries ⊆ registry.entries) :
    e.Independent part := by
  intro name a ha expr hexpr other hother
  exact (h name a (get?_of_subset hpart ha) expr hexpr other hother).imp_right
    (get?_eq_none_of_subset hpart)

/-- Events change states alone, so a registry stays independent. -/
theorem Independent.passes (h : e.Independent registry) (hpass : e.Passes event registry after) :
    e.Independent after := by
  have hfresh : fresh after = fresh registry := Folds.fresh_eq (.cons hpass (.nil after))
  intro name b hb expr hexpr other hother
  obtain ⟨a, ha, hreset⟩ := exists_reset_eq hfresh.symm hb
  have hrule : a.reset.rule = b.rule := by rw [hreset, Aggregator.reset]
  rw [← hrule] at hexpr
  refine (h name a ha expr hexpr other hother).imp_right fun hnone => ?_
  have hcontains := contains_of_fresh_eq hfresh other
  rwa [Table.contains_eq_false_iff.mpr hnone, Table.contains_eq_false_iff] at hcontains

/-- A part of the registry goes through an event as it does within the whole. -/
theorem Independent.passes_part (h : e.Independent registry) (hpart : part.entries ⊆ registry.entries)
    (hpass : e.Passes event registry after) :
    ∃ afterPart, e.Passes event part afterPart ∧ afterPart.entries ⊆ after.entries := by
  obtain ⟨-, hafter⟩ := h.passes_iff.mp hpass
  have hget : ∀ name a, part.get? name = some a → ∃ s, e.transition event registry a = .ok s ∧
      after.get? name = some { a with state := s } :=
    fun name a ha => hafter name a (get?_of_subset hpart ha)
  refine ⟨part.map fun name a => (after.get? name).getD a,
    (h.of_subset hpart).passes_iff.mpr ⟨Table.keys_map _, ?_⟩, ?_⟩
  · intro name a ha
    obtain ⟨s, hs, hnew⟩ := hget name a ha
    have hvalue : (Aggregator.values part).get? name = some a.value := by
      rw [Aggregator.values, Table.get?_map, ha]
      rfl
    have hsame : e.transition event part a = e.transition event registry a :=
      h.transition_eq (get?_of_subset hpart ha) hvalue fun other => get?_eq_none_of_subset hpart
    refine ⟨s, hsame.trans hs, ?_⟩
    rw [Table.get?_map, ha, hnew]
    rfl
  · rintro ⟨name, b⟩ hb
    have hb := Table.get?_eq_some_iff.mpr hb
    rw [Table.get?_map, Option.map_eq_some_iff] at hb
    obtain ⟨a, ha, rfl⟩ := hb
    obtain ⟨s, -, hnew⟩ := hget name a ha
    rw [hnew, Option.getD_some]
    exact Table.get?_eq_some_iff.mp hnew

end Parts

section ManyEvents

variable {events : List Event}

theorem Independent.folds_part (h : e.Independent registry) (hpart : part.entries ⊆ registry.entries)
    (hfold : e.Folds events registry after) :
    ∃ afterPart, e.Folds events part afterPart ∧ afterPart.entries ⊆ after.entries ∧
      afterPart.keys = part.keys := by
  induction hfold generalizing part with
  | nil => exact ⟨part, .nil part, hpart, rfl⟩
  | cons hpass _ ih =>
    obtain ⟨nextPart, hfirst, hnext⟩ := h.passes_part hpart hpass
    obtain ⟨afterPart, hrest, hafter, hkeys⟩ := ih (h.passes hpass) hnext
    refine ⟨afterPart, .cons hfirst hrest, hafter, hkeys.trans ?_⟩
    exact ((h.of_subset hpart).passes_iff.mp hfirst).1

/-- Aggregators of an independent registry do not affect one another. If all events get through the registry
they get through every part of it, whatever the order there, and lead each aggregator to the same state. -/
theorem trackAll_part (e : Engine) (part : Table Aggregator) (events : List Event)
    (h : e.Independent e.aggregators) (hpart : part.entries ⊆ e.aggregators.entries)
    (hok : e.failures events = []) :
    ({ e with aggregators := part } : Engine).failures events = [] ∧
    (({ e with aggregators := part } : Engine).trackAll events).aggregators.keys = part.keys ∧
    ∀ name ∈ part.keys, (({ e with aggregators := part } : Engine).trackAll events).aggregators.get? name =
      (e.trackAll events).aggregators.get? name := by
  obtain ⟨after, hfold, hafter, hkeys⟩ := h.folds_part hpart (folds_trackAll hok)
  have htables : e.SameTables { e with aggregators := part } := ⟨rfl, rfl, fun _ => rfl⟩
  obtain ⟨hclean, hend⟩ := trackAll_of_folds (e := { e with aggregators := part }) (hfold.congr htables)
  rw [hend]
  refine ⟨hclean, hkeys, ?_⟩
  intro name hname
  rw [← hkeys, ← Table.get?_isSome_iff] at hname
  obtain ⟨a, ha⟩ := Option.isSome_iff_exists.mp hname
  rw [ha, get?_of_subset hafter ha]

/-- Three aggregators. The machine steps by a function that refers to the machine and calls the function that
the selection calls too. -/
def threeApart : Specification :=
  let spec := (Specification.empty.withFunction "more" (.list [.atom (.text "+"), .atom (.text "arg.0"),
    .atom (.number 1)])).withFunction "next" (.list [.atom (.text "func.more"), .atom (.text "agg.m")])
  ((spec.withAggregator "n" (.list [.atom (.text "funnel"), .atom (.bool true)])).withAggregator "m"
    (.list [.atom (.text "state_machine"), .list [.atom (.text "func.next")],
      .list [.atom (.text "func.next")], .atom (.number 0)])).withAggregator "s"
    (.list [.atom (.text "select_if"), .atom (.bool true),
      .list [.atom (.text "func.more"), .atom (.text "event.v")]])

def apart : Engine := ((Engine.new .any 8).update threeApart).after

/-- Two of the three, in the other order. -/
def twoApart : Table Aggregator where
  entries := (apart.aggregators.erase "n").entries.reverse
  distinct := by
    rw [List.map_reverse]
    exact List.pairwise_reverse.mpr ((apart.aggregators.erase "n").distinct.imp Ne.symm)

theorem independent_apart : apart.Independent apart.aggregators :=
  independent_of_withBodies (fun name => if name = "m" then ["next", "more"] else ["more"])
    (by decide +kernel)

def twoValues : List Event := [Event.empty.set "v" (.number 1), Event.empty.set "v" (.number 2)]

theorem trackAll_twoApart : apart.Independent apart.aggregators ∧
    twoApart.entries ⊆ apart.aggregators.entries ∧ apart.failures twoValues = [] ∧
    (apart.trackAll twoValues).aggregators.entries.map (fun p => (p.1, p.2.state)) =
      [("n", .reached 2), ("m", .standing 2), ("s", .selected (.number 3))] ∧
    ({ apart with aggregators := twoApart } : Engine).failures twoValues = [] ∧
    (({ apart with aggregators := twoApart } : Engine).trackAll twoValues).aggregators.keys = ["s", "m"] ∧
    ∀ name ∈ twoApart.keys,
      (({ apart with aggregators := twoApart } : Engine).trackAll twoValues).aggregators.get? name =
        (apart.trackAll twoValues).aggregators.get? name := by
  have hpart : twoApart.entries ⊆ apart.aggregators.entries := by
    intro p hp
    exact (List.mem_filter.mp (List.mem_reverse.mp hp)).1
  have hok : apart.failures twoValues = [] := by decide +kernel
  have hkeys : twoApart.keys = ["s", "m"] := by decide +kernel
  obtain ⟨hclean, hend, hsame⟩ := trackAll_part apart twoApart twoValues independent_apart hpart hok
  exact ⟨independent_apart, hpart, hok, by decide +kernel, hclean, hend.trans hkeys, hsame⟩

end ManyEvents

end EventFold.Engine
