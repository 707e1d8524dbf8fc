import EventFold.Aggregator.Rule

/-!
# States of aggregators

Each kind of rule has states of its own. What the rest of the world sees of a state is its value.
-/

namespace EventFold

inductive State where
  | selected (value : Value)
  | reached (steps : UInt64)
  /-- The number of the state of a machine; a transition may have set it to any number. -/
  | standing (state : Number)
deriving DecidableEq, Inhabited

namespace State

def initial : AggregatorKind → State
  | .selectIf => selected .null
  | .funnel => reached 0
  | .stateMachine => standing 0

def kind : State → AggregatorKind
  | selected _ => .selectIf
  | reached _ => .funnel
  | standing _ => .stateMachine

def value : State → Value
  | selected v => v
  | reached steps => .number (Float.ofNat steps.toNat)
  | standing state => .number state

@[simp] theorem kind_initial (kind : AggregatorKind) : (initial kind).kind = kind := by
  cases kind <;> rfl

end State

end EventFold
