import EventFold.Aggregator.State
import EventFold.Eval.Basic

/-!
# Aggregators

An aggregator is a named rule with its present state. `Aggregator.move` says what an event does to it
without doing it, so that the evaluation sees the aggregators as they were before.
-/

namespace EventFold

inductive Move where
  | stay
  | enter (next : State)
  /-- A machine that stays in its state because the expression of the state yields no number. -/
  | refused (state : Number) (value : Value)
deriving DecidableEq

def Move.next? : Move → Option State
  | enter next => some next
  | _ => none

structure Aggregator where
  name : String
  source : Form
  rule : Rule
  state : State
deriving Inhabited

namespace Aggregator

def kind (a : Aggregator) : AggregatorKind := a.rule.kind

def value (a : Aggregator) : Value := a.state.value

def new (name : String) (source : Form) (rule : Rule) : Aggregator :=
  ⟨name, source, rule, .initial rule.kind⟩

def ofForm (names : Vocabulary) (name : String) (source : Form) : Except FormError Aggregator :=
  (source.toRule names).map (new name source)

def reset (a : Aggregator) : Aggregator := { a with state := .initial a.kind }

/-- The aggregator in a given state, or before any event if the state is of another kind. -/
def restore (a : Aggregator) (state : State) : Aggregator :=
  if state.kind = a.kind then { a with state } else a.reset

def fits (a : Aggregator) (state : State) : Bool := state.kind = a.kind

def moved (a : Aggregator) (m : Move) : Aggregator :=
  match m.next? with
  | some next => a.restore next
  | none => a

def selectMove (scope : Scope) (condition value : Expr) : Evaluation Move := do
  if (← condition.eval scope).truthy then return .enter (.selected (← value.eval scope))
  else return .stay

/-- The move of a funnel after so many steps: the steps are tried in a circle. The count wraps at its end. -/
def funnelMove (scope : Scope) (steps : List Expr) (taken : UInt64) : Evaluation Move := do
  match steps[taken.toNat % steps.length]? with
  | none => return .stay
  | some step =>
    if (← step.eval scope).truthy then return .enter (.reached (taken + 1)) else return .stay

/-- The expression of a state of a machine. Only a number that is an index of the states has one. -/
def stateExpr? (states : List Expr) (state : Number) : Option Expr :=
  state.natural?.bind (states[·]?)

/-- The move of a machine. One whose state has no expression stays for ever. -/
def machineMove (scope : Scope) (states : List Expr) (state : Number) : Evaluation Move := do
  match stateExpr? states state with
  | none => return .stay
  | some next =>
    match ← next.eval scope with
    | .number x => return .enter (.standing x)
    | value => return .refused state value

def move (a : Aggregator) (scope : Scope) : Evaluation Move :=
  match a.rule, a.state with
  | .selectIf condition value, _ => selectMove scope condition value
  | .funnel steps, .reached taken => funnelMove scope steps taken
  | .stateMachine states, .standing state => machineMove scope states state
  | _, _ => return .stay

end Aggregator

end EventFold
