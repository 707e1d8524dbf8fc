import EventFold.Aggregator.Basic
import EventFold.Proofs.Eval.Relevance

/-!
# Moves of aggregators

A move leaves the stack alone and never leads to a state of another kind, so storing it replaces the
state and nothing else.
-/

namespace EventFold

open Evaluation

namespace Aggregator

variable {scope : Scope} {a : Aggregator} {m : Move} {s : CallStack}

theorem selectMove_balanced (condition value : Expr) : Balanced (selectMove scope condition value) := by
  refine (condition.eval_balanced scope).bind fun v => ?_
  split
  · exact (value.eval_balanced scope).bind fun _ => balanced_pure _
  · exact balanced_pure _

theorem funnelMove_balanced (steps : List Expr) (taken : UInt64) :
    Balanced (funnelMove scope steps taken) := by
  unfold funnelMove
  split
  · exact balanced_pure _
  · rename_i step _
    refine (step.eval_balanced scope).bind fun v => ?_
    split
    · exact balanced_pure _
    · exact balanced_pure _

theorem machineMove_balanced (states : List Expr) (state : Number) :
    Balanced (machineMove scope states state) := by
  unfold machineMove
  split
  · exact balanced_pure _
  · rename_i next _
    refine (next.eval_balanced scope).bind fun v => ?_
    split
    · exact balanced_pure _
    · exact balanced_pure _

theorem move_balanced (a : Aggregator) (scope : Scope) : Balanced (a.move scope) := by
  unfold move
  split
  · exact selectMove_balanced _ _
  · exact funnelMove_balanced _ _
  · exact machineMove_balanced _ _
  · exact balanced_pure _

def LeadsTo (kind : AggregatorKind) (m : Move) : Prop := ∀ next, m.next? = some next → next.kind = kind

theorem leadsTo_stay (kind : AggregatorKind) : LeadsTo kind .stay := by
  intro next h
  cases h

theorem leadsTo_enter (next : State) : LeadsTo next.kind (.enter next) := by
  intro _ h
  cases h
  rfl

theorem leadsTo_refused (kind : AggregatorKind) (state : Number) (value : Value) :
    LeadsTo kind (.refused state value) := by
  intro next h
  cases h

theorem selectMove_leadsTo (condition value : Expr) :
    Yields (LeadsTo .selectIf) (selectMove scope condition value) := by
  refine yields_bind fun c => ?_
  split
  · exact yields_bind fun v => yields_pure (leadsTo_enter (.selected v))
  · exact yields_pure (leadsTo_stay _)

theorem funnelMove_leadsTo (steps : List Expr) (taken : UInt64) :
    Yields (LeadsTo .funnel) (funnelMove scope steps taken) := by
  unfold funnelMove
  split
  · exact yields_pure (leadsTo_stay _)
  · refine yields_bind fun v => ?_
    split
    · exact yields_pure (leadsTo_enter (.reached (taken + 1)))
    · exact yields_pure (leadsTo_stay _)

theorem machineMove_leadsTo (states : List Expr) (state : Number) :
    Yields (LeadsTo .stateMachine) (machineMove scope states state) := by
  unfold machineMove
  split
  · exact yields_pure (leadsTo_stay _)
  · refine yields_bind fun v => ?_
    split
    · exact yields_pure (leadsTo_enter (.standing _))
    · exact yields_pure (leadsTo_refused _ _ _)

theorem move_leadsTo (a : Aggregator) (scope : Scope) : Yields (LeadsTo a.kind) (a.move scope) := by
  unfold move kind
  split
  · rename_i hr
    rw [hr]
    exact selectMove_leadsTo _ _
  · rename_i hr _
    rw [hr]
    exact funnelMove_leadsTo _ _
  · rename_i hr _
    rw [hr]
    exact machineMove_leadsTo _ _
  · exact yields_pure (leadsTo_stay _)

/-- Storing a move replaces the state alone; the reset that `restore` knows is never taken. -/
theorem moved_eq (h : (a.move scope).resultOn s = .ok m) :
    a.moved m = { a with state := m.next?.getD a.state } := by
  unfold moved
  cases hn : m.next? with
  | none => rfl
  | some next => simp only [restore, move_leadsTo a scope s m h next hn, if_true, Option.getD_some]

theorem selectMove_congr {b c : Scope} {condition value : Expr}
    (h : ∀ e ∈ [condition, value], e.eval b = e.eval c) :
    selectMove b condition value = selectMove c condition value := by
  rw [selectMove, selectMove, h condition (by simp), h value (by simp)]

theorem funnelMove_congr {b c : Scope} {steps : List Expr} (h : ∀ e ∈ steps, e.eval b = e.eval c)
    (taken : UInt64) : funnelMove b steps taken = funnelMove c steps taken := by
  unfold funnelMove
  cases hstep : steps[taken.toNat % steps.length]? with
  | none => rfl
  | some step => simp only [h step (List.mem_of_getElem? hstep)]

theorem machineMove_congr {b c : Scope} {states : List Expr} (h : ∀ e ∈ states, e.eval b = e.eval c)
    (state : Number) : machineMove b states state = machineMove c states state := by
  unfold machineMove
  cases hnext : stateExpr? states state with
  | none => rfl
  | some next =>
    obtain ⟨index, -, hindex⟩ := Option.bind_eq_some_iff.mp hnext
    simp only [h next (List.mem_of_getElem? hindex)]

/-- A move depends on the values of the expressions of the rule alone. -/
theorem move_eq_of_eval_eq {b c : Scope} (h : ∀ e ∈ a.rule.exprs, e.eval b = e.eval c) :
    a.move b = a.move c := by
  unfold move
  cases hrule : a.rule with
  | selectIf condition value =>
    rw [hrule] at h
    exact selectMove_congr h
  | funnel steps =>
    rw [hrule] at h
    cases a.state with
    | reached taken => exact funnelMove_congr h taken
    | selected value => rfl
    | standing state => rfl
  | stateMachine states =>
    rw [hrule] at h
    cases a.state with
    | standing state => exact machineMove_congr h state
    | selected value => rfl
    | reached taken => rfl

theorem move_congr {b c : Scope} (h : b.Same c) (a : Aggregator) : a.move b = a.move c :=
  move_eq_of_eval_eq fun e _ => h.eval_eq e

end Aggregator

end EventFold
