import EventFold.Expr.Reading

/-!
# Aggregation rules

An aggregator folds events into a state by the expressions of its rule. There are three kinds of rule,
each written as a list whose head is the tag of the kind.
-/

namespace EventFold

inductive AggregatorKind where
  | selectIf
  | funnel
  | stateMachine
deriving DecidableEq, Repr

namespace AggregatorKind

def all : List AggregatorKind := [selectIf, funnel, stateMachine]

def tag : AggregatorKind → String
  | selectIf => "select_if"
  | funnel => "funnel"
  | stateMachine => "state_machine"

def ofTag? (s : String) : Option AggregatorKind :=
  all.find? fun kind => kind.tag == s

theorem ofTag?_tag (kind : AggregatorKind) : ofTag? kind.tag = some kind := by
  cases kind <;> decide +kernel

end AggregatorKind

inductive Rule where
  /-- Keeps the value of the last event that meets the condition. -/
  | selectIf (condition value : Expr)
  /-- Counts steps taken, in a circle; an event that meets the step at hand takes it. -/
  | funnel (steps : List Expr)
  /-- Is in a state given by its number; the expression of that state yields the next one. -/
  | stateMachine (states : List Expr)
deriving Inhabited

def Rule.kind : Rule → AggregatorKind
  | selectIf .. => .selectIf
  | funnel _ => .funnel
  | stateMachine _ => .stateMachine

def Rule.exprs : Rule → List Expr
  | selectIf condition value => [condition, value]
  | funnel steps => steps
  | stateMachine states => states

namespace Form

/-- The rule of a kind with the given expressions behind its tag. Their number is judged first. -/
def readRule (names : Vocabulary) (kind : AggregatorKind) (rest : List Form) :
    Except FormError Rule :=
  match kind, rest with
  | .selectIf, [condition, value] => do
    return .selectIf (← toExpr names condition) (← toExpr names value)
  | .selectIf, rest => .error (.arity kind.tag 2 rest.length)
  | _, [] => .error (.arity kind.tag 1 0)
  | .funnel, rest => (toExprs names rest).map .funnel
  | .stateMachine, rest => (toExprs names rest).map .stateMachine

def toRule (names : Vocabulary) : Form → Except FormError Rule
  | list [] => .error .emptyForm
  | list (atom (.text tag) :: rest) =>
    match AggregatorKind.ofTag? tag with
    | some kind => readRule names kind rest
    | none => .error (.unknownAggregatorKind tag)
  | list (head :: _) => .error (.aggregatorKindNotText head)
  | form => .error (.aggregatorNotList form)

end Form

end EventFold
