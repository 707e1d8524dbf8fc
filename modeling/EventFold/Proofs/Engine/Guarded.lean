import EventFold.Proofs.Engine.Reachable
import EventFold.Proofs.Form.Reading

/-!
# Passes that never give up

A pass has branches for aggregators that never come up: one whose state is of another kind than its rule, a
funnel without steps, a move to a state of another kind. The guarded pass gives up in these branches. In a
reachable engine it does what the pass does, since every aggregator that it meets is sound, also within an event
and within a replay.
-/

namespace EventFold

namespace Aggregator

def stepMove (scope : Scope) (step : Expr) (taken : UInt64) : Evaluation Move := do
  if (← step.eval scope).truthy then return .enter (.reached (taken + 1)) else return .stay

/-- The move of an aggregator whose state is of the kind of its rule, and of a funnel only if it has steps. -/
def move? (a : Aggregator) (scope : Scope) : Option (Evaluation Move) :=
  match a.rule, a.state with
  | .selectIf condition value, _ => some (selectMove scope condition value)
  | .funnel steps, .reached taken =>
    steps[taken.toNat % steps.length]?.map fun step => stepMove scope step taken
  | .stateMachine states, .standing state => some (machineMove scope states state)
  | _, _ => none

/-- The aggregator after a move that leads to a state of its kind. -/
def moved? (a : Aggregator) (m : Move) : Option Aggregator :=
  match m.next? with
  | some next => if a.fits next then some { a with state := next } else none
  | none => some a

variable {names : Vocabulary} {name : String} {a : Aggregator} {scope : Scope} {m : Move} {s : CallStack}

/-- A rule that was read has expressions, so a funnel has steps. -/
theorem IsSound.exprs_ne_nil (h : a.IsSound names name) : a.rule.exprs ≠ [] := by
  obtain ⟨rest, -, hne, hexprs⟩ := Form.toRule_eq_ok_iff.mp h.rule_eq
  intro hnil
  have hlen := Form.length_of_toExprs hexprs
  rw [hnil] at hlen
  exact hne (List.eq_nil_of_length_eq_zero hlen.symm)

theorem IsSound.move?_eq (h : a.IsSound names name) (scope : Scope) :
    a.move? scope = some (a.move scope) := by
  have hkind := h.kind_eq
  have hexprs := h.exprs_ne_nil
  unfold move? move kind at *
  cases hrule : a.rule with
  | selectIf condition value => rfl
  | funnel steps =>
    rw [hrule] at hkind hexprs
    cases hstate : a.state with
    | reached taken =>
      have hpos : 0 < steps.length := List.length_pos_iff.mpr hexprs
      have hstep := List.getElem?_eq_getElem (Nat.mod_lt taken.toNat hpos)
      simp only [hstep, Option.map_some, funnelMove]
      rfl
    | selected value =>
      rw [hstate] at hkind
      cases hkind
    | standing state =>
      rw [hstate] at hkind
      cases hkind
  | stateMachine states =>
    rw [hrule] at hkind
    cases hstate : a.state with
    | standing state => rfl
    | selected value =>
      rw [hstate] at hkind
      cases hkind
    | reached taken =>
      rw [hstate] at hkind
      cases hkind

theorem moved?_eq (h : (a.move scope).resultOn s = .ok m) : a.moved? m = some (a.moved m) := by
  rw [moved_eq h]
  unfold moved?
  cases hnext : m.next? with
  | none => rfl
  | some next =>
    have hfits : a.fits next = true := decide_eq_true (move_leadsTo a scope s m h next hnext)
    simp only [hfits, if_true, Option.getD_some]

end Aggregator

/-- The guarded pass: it gives up where an aggregator is not there, has no move, or a state does not fit. -/
def Pass.throughNames? (scope : Scope) : List String → Pass → Option Pass
  | [], p => some p
  | name :: rest, p => do
    let a ← p.registry.get? name
    let move ← a.move? { scope with aggregators := Aggregator.values p.registry }
    match move.run.run p.stack with
    | (.error e, stack) => return { p with stack, error := some e }
    | (.ok m, stack) =>
      let next ← a.moved? m
      throughNames? scope rest
        { p with
          registry := p.registry.modify name fun _ => next
          stack
          notices := p.notices ++ notices? a m }

open Aggregator

/-- By induction on the names that are left. What was passed has been modified in place and is still sound. -/
theorem Pass.throughNames?_eq {names : Vocabulary} {scope : Scope} {slots : List String} {p : Pass}
    (h : AllSound names p.registry) (hslots : ∀ name ∈ slots, name ∈ p.registry.keys) :
    throughNames? scope slots p = some (throughNames scope slots p) := by
  induction slots generalizing p with
  | nil => rfl
  | cons name rest ih =>
    obtain ⟨a, ha⟩ := Option.isSome_iff_exists.mp (Table.get?_isSome_iff.mpr (hslots name List.mem_cons_self))
    simp only [throughNames?, throughNames, ha, (h name a ha).move?_eq, Option.bind_eq_bind, Option.bind_some]
    rcases hrun : (a.move { scope with aggregators := Aggregator.values p.registry }).run.run p.stack
      with ⟨result, stack⟩
    cases result with
    | error e => rfl
    | ok m =>
      have hm : (a.move { scope with aggregators := Aggregator.values p.registry }).resultOn p.stack = .ok m := by
        rw [Evaluation.resultOn, hrun]
      have hstore : p.registry.modify name (fun _ => a.moved m) = p.registry.modify name (·.moved m) :=
        Table.modify_congr ha rfl
      simp only [moved?_eq hm, Option.bind_some, hstore]
      refine ih (h.modify m name) fun other hother => ?_
      rw [Table.keys_modify]
      exact hslots other (List.mem_cons_of_mem name hother)

namespace Engine

def passEvents? (e : Engine) : List Event → Pass → Option Pass
  | [], p => some p
  | event :: rest, p => do
    let p ← Pass.throughNames? (e.scope (some event)) p.registry.keys { p with stack := .empty e.limit }
    match p.error with
    | some _ => return p
    | none => e.passEvents? rest p

def track? (e : Engine) (event : Event) : Option (Outcome Engine Unit) := do
  let p ← Pass.throughNames? (e.scope (some event)) e.aggregators.keys (e.begin e.aggregators)
  return ⟨{ e with events := e.events.push event, aggregators := p.registry }, p.result, p.notices⟩

def replay? (e : Engine) : Option (Outcome Engine Unit) := do
  let p ← e.passEvents? e.events.toList (e.begin (e.aggregators.map fun _ a => a.reset))
  let done : Array Notice :=
    if p.error.isNone then #[.replayed e.events.size e.aggregators.size] else #[]
  return ⟨{ e with aggregators := p.registry }, p.result, p.notices ++ done⟩

def update? (e : Engine) (spec : Specification) : Option (Outcome Engine Update) :=
  match readFunctions e.names spec.functions.entries with
  | .error failure => some ⟨e, .error failure, #[]⟩
  | .ok functions =>
    if e.isStale spec then do
      let o ← (e.aligned spec (.ofList functions)).replay?
      return ⟨o.after, o.result.map fun _ => e.report spec true,
        (Reconciliation.run e.names e.aggregators spec.aggregators).notices ++ o.notices⟩
    else some (e.takeOver spec (.ofList functions))

variable {e : Engine}

theorem passEvents?_eq {names : Vocabulary} {events : List Event} {p : Pass} (h : AllSound names p.registry) :
    e.passEvents? events p = some (e.passEvents events p) := by
  induction events generalizing p with
  | nil => rfl
  | cons event rest ih =>
    have hpass : Pass.throughNames? (e.scope (some event)) p.registry.keys { p with stack := .empty e.limit } =
        some (e.passEvent event { p with stack := .empty e.limit }) :=
      Pass.throughNames?_eq h fun _ hname => hname
    have hsound : AllSound names (e.passEvent event { p with stack := .empty e.limit }).registry :=
      Pass.throughNames_allSound h
    simp only [passEvents?, passEvents, hpass, Option.bind_eq_bind, Option.bind_some]
    cases (e.passEvent event { p with stack := .empty e.limit }).error with
    | some error => rfl
    | none => exact ih hsound

theorem Sound.track?_eq (h : e.Sound) (event : Event) : e.track? event = some (e.track event) := by
  have hpass : Pass.throughNames? (e.scope (some event)) e.aggregators.keys (e.begin e.aggregators) =
      some (e.passEvent event (e.begin e.aggregators)) :=
    Pass.throughNames?_eq (p := e.begin e.aggregators) h fun _ hname => hname
  rw [track?, hpass]
  rfl

theorem Sound.replay?_eq (h : e.Sound) : e.replay? = some e.replay := by
  have hreset : AllSound e.names (e.aggregators.map fun _ a => a.reset) := h.map fun _ _ ha => ha.reset
  rw [replay?, passEvents?_eq (p := e.begin (e.aggregators.map fun _ a => a.reset)) hreset]
  rfl

theorem Sound.update?_eq (h : e.Sound) (spec : Specification) : e.update? spec = some (e.update spec) := by
  unfold update? Engine.update
  cases readFunctions e.names spec.functions.entries with
  | error failure => rfl
  | ok functions =>
    simp only [takeOver_eq]
    cases e.isStale spec with
    | false => rfl
    | true =>
      simp only [if_true, (h.aligned spec (.ofList functions)).replay?_eq]
      rfl

/-- What a registry is at any time. Its names are distinct, every aggregator stands under its own name, has the
rule that is read from its source, a state of the kind of the rule and at least one expression. So no event that
is tracked, or replayed, also by an update, comes to a branch for other aggregators. -/
theorem Reachable.represented (h : Reachable e) :
    e.aggregators.keys.Nodup ∧
    (∀ name a, e.aggregators.get? name = some a →
      a.name = name ∧ a.source.toRule e.names = .ok a.rule ∧ a.state.kind = a.rule.kind ∧
        a.rule.exprs ≠ []) ∧
    (∀ event, e.track? event = some (e.track event)) ∧
    e.replay? = some e.replay ∧
    ∀ spec, e.update? spec = some (e.update spec) := by
  have hsound := h.sound
  refine ⟨e.aggregators.nodup_keys, ?_, hsound.track?_eq, hsound.replay?_eq, hsound.update?_eq⟩
  intro name a ha
  have hisSound := hsound name a ha
  exact ⟨hisSound.name_eq, hisSound.rule_eq, hisSound.kind_eq, hisSound.exprs_ne_nil⟩

/-- An aggregator of each kind. The last one fails on every event that has a name. -/
def threeKinds : Specification :=
  ((Specification.empty.withAggregator "n" (.list [.atom (.text "funnel"), .atom (.bool true)])).withAggregator
    "m" (.list [.atom (.text "state_machine"), .atom (.number 1), .atom (.number 0)])).withAggregator
    "sum" (.list [.atom (.text "select_if"), .atom (.bool true),
      .list [.atom (.text "+"), .atom (.text "event.name"), .atom (.number 1)]])

/-- A state for the machine, one of another kind for the funnel and one for nothing. -/
def foreignStates : Snapshot :=
  ⟨((Table.empty.insert "m" (.standing 1)).insert "n" (.selected (.bool true))).insert "gone" (.reached 7)⟩

/-- The engine after an event that fails and a snapshot that does not fit. -/
def unsettled : Engine :=
  ((((Engine.new .any 8).update threeKinds).after.track (.named "go")).after.restore foreignStates).after

theorem represented_unsettled : Reachable unsettled ∧
    unsettled.aggregators.entries.map (fun p => (p.1, p.2.state)) =
      [("n", .reached 0), ("m", .standing 1), ("sum", .selected .null)] ∧
    (∀ name a, unsettled.aggregators.get? name = some a →
      a.name = name ∧ a.source.toRule unsettled.names = .ok a.rule ∧ a.state.kind = a.rule.kind ∧
        a.rule.exprs ≠ []) ∧
    (unsettled.track (.named "go")).result = .error (.evaluation (.notANumber .add (.text "go"))) ∧
    unsettled.track? (.named "go") = some (unsettled.track (.named "go")) ∧
    unsettled.replay? = some unsettled.replay := by
  have hreach : Reachable unsettled := .restore _ (.track _ (.update _ (.new .any 8)))
  obtain ⟨-, hentries, htrack, hreplay, -⟩ := Reachable.represented hreach
  exact ⟨hreach, by decide +kernel, hentries, by decide +kernel, htrack _, hreplay⟩

end Engine

end EventFold
