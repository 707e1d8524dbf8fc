import EventFold.Engine.Basic
import EventFold.Proofs.Aggregator.Moves
import EventFold.Proofs.Table

/-!
# An aggregator by itself

`process` sends one event to one aggregator, as a pass does at each slot (`throughNames_slot`), and `processAll`
sends events one after the other, each with a scope of its own. An aggregator is `Attained` if it has come about
by events, resets and restored states, whatever these were. Its state is of the kind of its rule.
-/

namespace EventFold

namespace Aggregator

/-- Sends the event of a scope to the aggregator. An evaluation that fails leaves it as it was. -/
def process (a : Aggregator) (scope : Scope) (s : CallStack) : Outcome (Aggregator × CallStack) Unit :=
  match (a.move scope).run.run s with
  | (.error e, s) => ⟨(a, s), .error (.evaluation e), #[]⟩
  | (.ok m, s) => ⟨(a.moved m, s), .ok (), Pass.notices? a m⟩

/-- Sends events to the aggregator one after the other, up to the first that fails. -/
def processAll (a : Aggregator) (s : CallStack) : List Scope → Outcome (Aggregator × CallStack) Unit
  | [] => ⟨(a, s), .ok (), #[]⟩
  | scope :: rest => (a.process scope s).andThen fun (a, s) _ => a.processAll s rest

/-- The aggregators that come about from new ones. Events may fail, and states may be restored from anywhere. -/
inductive Attained : Aggregator → Prop where
  | new (name : String) (source : Form) (rule : Rule) : Attained (.new name source rule)
  | reset {a : Aggregator} : Attained a → Attained a.reset
  | restore {a : Aggregator} (state : State) : Attained a → Attained (a.restore state)
  | process {a : Aggregator} (scope : Scope) (s : CallStack) :
    Attained a → Attained (a.process scope s).after.1

variable {a : Aggregator} {scope : Scope} {s : CallStack} {m : Move} {e : EvalError}

theorem process_of_ok (h : (a.move scope).resultOn s = .ok m) : a.process scope s =
    ⟨({ a with state := m.next?.getD a.state }, s), .ok (), Pass.notices? a m⟩ := by
  rw [process, (a.move_balanced scope).run_eq, h, ← moved_eq h]

theorem process_of_error (h : (a.move scope).resultOn s = .error e) :
    a.process scope s = ⟨(a, s), .error (.evaluation e), #[]⟩ := by
  rw [process, (a.move_balanced scope).run_eq, h]

/-- Nothing of an aggregator but its state is changed by an event, and nothing of the stack. -/
theorem exists_after_process (a : Aggregator) (scope : Scope) (s : CallStack) :
    ∃ state, (a.process scope s).after = ({ a with state }, s) := by
  cases h : (a.move scope).resultOn s with
  | ok m => exact ⟨_, by rw [process_of_ok h]⟩
  | error e => exact ⟨a.state, by rw [process_of_error h]⟩

/-- What no event changes stays the same for ever. -/
theorem processAll_of_fixed (h : ∀ scope, a.process scope s = ⟨(a, s), .ok (), #[]⟩) (scopes : List Scope) :
    a.processAll s scopes = ⟨(a, s), .ok (), #[]⟩ := by
  induction scopes with
  | nil => rfl
  | cons scope rest ih =>
    rw [processAll, h scope]
    simp only [Outcome.andThen, ih]
    rfl

theorem kind_restore (a : Aggregator) (state : State) : (a.restore state).state.kind = a.kind := by
  unfold restore
  split
  · assumption
  · exact State.kind_initial a.kind

theorem kind_process (h : a.state.kind = a.kind) (scope : Scope) (s : CallStack) :
    (a.process scope s).after.1.state.kind = a.kind := by
  cases hm : (a.move scope).resultOn s with
  | error e => rw [process_of_error hm, h]
  | ok m =>
    rw [process_of_ok hm]
    cases hnext : m.next? with
    | none => exact h
    | some next => exact move_leadsTo a scope s m hm next hnext

theorem Attained.kind_eq (h : a.Attained) : a.state.kind = a.kind := by
  induction h with
  | new name source rule => exact State.kind_initial rule.kind
  | @reset a _ _ => exact State.kind_initial a.kind
  | @restore a state _ _ =>
    have hrule : (a.restore state).kind = a.kind := by
      unfold Aggregator.restore
      split <;> rfl
    rw [hrule, kind_restore]
  | @process a scope s _ ih =>
    obtain ⟨state, hafter⟩ := a.exists_after_process scope s
    have hkind := kind_process ih scope s
    rw [hafter] at hkind ⊢
    exact hkind

end Aggregator

/-- What a pass does at a slot is to process the aggregator there, in view of the registry as it is. -/
theorem Pass.throughNames_slot {scope : Scope} {p : Pass} {name : String} {a : Aggregator}
    (ha : p.registry.get? name = some a) (hnone : p.error = none) :
    let o := a.process { scope with aggregators := Aggregator.values p.registry } p.stack
    (throughNames scope [name] p).result = o.result ∧
      (throughNames scope [name] p).registry = p.registry.modify name (fun _ => o.after.1) ∧
      (throughNames scope [name] p).stack = o.after.2 ∧
      (throughNames scope [name] p).notices = p.notices ++ o.notices := by
  simp only [throughNames, ha, Aggregator.process]
  rcases (a.move { scope with aggregators := Aggregator.values p.registry }).run.run p.stack with
    ⟨result, stack⟩
  cases result with
  | error e => exact ⟨rfl, (Table.modify_eq_self ha).symm, rfl, Array.append_empty.symm⟩
  | ok m =>
    have hstored := Table.modify_congr (f := (·.moved m)) (g := fun _ => a.moved m) ha rfl
    exact ⟨by rw [result, hnone], hstored, rfl, rfl⟩

end EventFold
