import EventFold.Engine.Saving
import EventFold.Proofs.Aggregator.Moves
import EventFold.Proofs.Engine.Reconciling
import EventFold.Proofs.Engine.Updates
import EventFold.Proofs.Results

/-!
# Engines that are ever met

`Reachable` are the engines that calls lead to from a new one, in any order and whether they succeed or
fail. In all of them a registered aggregator is what its source means: it bears the name that it stands
under, its rule is the one read from its source, and its state is of the kind of the rule.
-/

namespace EventFold

/-- An aggregator that stands under a name is what its source means. -/
structure Aggregator.IsSound (names : Vocabulary) (name : String) (a : Aggregator) : Prop where
  name_eq : a.name = name
  rule_eq : a.source.toRule names = .ok a.rule
  kind_eq : a.state.kind = a.kind

namespace Aggregator

variable {names : Vocabulary} {name : String} {a : Aggregator}

theorem IsSound.reset (h : a.IsSound names name) : a.reset.IsSound names name :=
  ⟨h.name_eq, h.rule_eq, State.kind_initial _⟩

theorem IsSound.restore (h : a.IsSound names name) (state : State) :
    (a.restore state).IsSound names name := by
  unfold Aggregator.restore
  split
  · rename_i hkind
    exact ⟨h.name_eq, h.rule_eq, hkind⟩
  · exact h.reset

theorem IsSound.moved (h : a.IsSound names name) (m : Move) : (a.moved m).IsSound names name := by
  unfold Aggregator.moved
  split
  · exact h.restore _
  · exact h

theorem isSound_of_ofForm {source : Form} (h : ofForm names name source = .ok a) :
    a.source = source ∧ a.IsSound names name := by
  obtain ⟨rule, hrule, rfl⟩ := map_eq_ok_iff.mp h
  exact ⟨rfl, rfl, hrule, State.kind_initial _⟩

def AllSound (names : Vocabulary) (registry : Table Aggregator) : Prop :=
  ∀ name a, registry.get? name = some a → a.IsSound names name

variable {registry : Table Aggregator}

theorem allSound_empty (names : Vocabulary) : AllSound names ∅ := by
  intro name a h
  cases h

theorem AllSound.map (h : AllSound names registry) {f : String → Aggregator → Aggregator}
    (hf : ∀ name a, a.IsSound names name → (f name a).IsSound names name) :
    AllSound names (registry.map f) := by
  intro name a ha
  rw [Table.get?_map, Option.map_eq_some_iff] at ha
  obtain ⟨b, hb, rfl⟩ := ha
  exact hf name b (h name b hb)

theorem AllSound.modify (h : AllSound names registry) (m : Move) (name : String) :
    AllSound names (registry.modify name (·.moved m)) := by
  refine h.map fun other a ha => ?_
  split
  · exact ha.moved m
  · exact ha

end Aggregator

open Aggregator

theorem Pass.throughNames_allSound {names : Vocabulary} {scope : Scope} {slots : List String} {p : Pass}
    (h : AllSound names p.registry) : AllSound names (Pass.throughNames scope slots p).registry := by
  induction slots generalizing p with
  | nil => exact h
  | cons name rest ih =>
    unfold Pass.throughNames
    split
    · exact ih h
    · split
      · exact h
      · exact ih (h.modify _ name)

/-- What a reconciliation registers was registered before or has been read. -/
theorem Reconciliation.run_allSound {names : Vocabulary} {registry : Table Aggregator}
    (h : AllSound names registry) (entries : Table Form) :
    AllSound names (run names registry entries).registry := by
  intro name a ha
  rw [run_get?] at ha
  cases hform : entries.get? name with
  | none =>
    rw [hform] at ha
    cases ha
  | some form =>
    rw [hform, Option.map_some] at ha
    cases hv : verdict names registry (name, form) with
    | kept =>
      rw [hv] at ha
      exact h name a ha
    | read b =>
      rw [hv] at ha
      cases ha
      exact (isSound_of_ofForm (verdict_eq_read_iff.mp hv).2).2
    | refused error =>
      rw [hv] at ha
      cases ha

namespace Engine

/-- The engines that calls lead to from a new one. Nothing is asked of how the calls end. -/
inductive Reachable : Engine → Prop where
  | new (names : Vocabulary) (limit : Nat) : Reachable (Engine.new names limit)
  | update {e : Engine} (spec : Specification) : Reachable e → Reachable (e.update spec).after
  | track {e : Engine} (event : Event) : Reachable e → Reachable (e.track event).after
  | replay {e : Engine} : Reachable e → Reachable e.replay.after
  | restore {e : Engine} (s : Snapshot) : Reachable e → Reachable (e.restore s).after

def Sound (e : Engine) : Prop := AllSound e.names e.aggregators

variable {e : Engine}

theorem passEvents_allSound {names : Vocabulary} {events : List Event} {p : Pass}
    (h : AllSound names p.registry) : AllSound names (e.passEvents events p).registry := by
  induction events generalizing p with
  | nil => exact h
  | cons event rest ih =>
    have hpass : AllSound names (e.passEvent event { p with stack := .empty e.limit }).registry :=
      Pass.throughNames_allSound h
    simp only [passEvents]
    split
    · exact hpass
    · exact ih hpass

theorem Sound.track (h : e.Sound) (event : Event) : (e.track event).after.Sound :=
  Pass.throughNames_allSound (p := e.begin e.aggregators) h

theorem Sound.replay (h : e.Sound) : e.replay.after.Sound := by
  have hreset : AllSound e.names (e.aggregators.map fun _ a => a.reset) :=
    h.map fun _ _ ha => ha.reset
  exact passEvents_allSound (p := e.begin (e.aggregators.map fun _ a => a.reset)) hreset

theorem Sound.restore (h : e.Sound) (s : Snapshot) : (e.restore s).after.Sound := by
  refine h.map fun name a ha => ?_
  unfold restored
  split
  · exact ha.restore _
  · exact ha.reset

theorem Sound.aligned (h : e.Sound) (spec : Specification) (functions : Table Expr) :
    (e.aligned spec functions).Sound :=
  Reconciliation.run_allSound h spec.aggregators

theorem Sound.update (h : e.Sound) (spec : Specification) : (e.update spec).after.Sound := by
  unfold Engine.update
  split
  · exact h
  · rename_i bodies _
    rw [takeOver_eq]
    split
    · exact (h.aligned spec (.ofList bodies)).replay
    · exact h.aligned spec (.ofList bodies)

theorem Reachable.sound (h : Reachable e) : e.Sound := by
  induction h with
  | new names limit => exact allSound_empty names
  | update spec _ ih => exact ih.update spec
  | track event _ ih => exact ih.track event
  | replay _ ih => exact ih.replay
  | restore s _ ih => exact ih.restore s

end Engine

end EventFold
