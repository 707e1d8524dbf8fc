import EventFold.Eval.Operator
import EventFold.Event

/-!
# Evaluation

`Expr.eval` evaluates an expression against the tables of a scope. A call evaluates its arguments in
the caller's frame, then the body of the function in a frame of its own; a function that is not there
yields null. Operands and arguments are all evaluated, from left to right, before anything is done
with them.

Evaluation always ends: the limit of the stack leaves room for so many nested calls, and `callWith`
recurses on that room, the walk over one expression on the expression.
-/

namespace EventFold

structure Scope where
  event : Option Event
  vars : Table Value
  aggregators : Table Value
  functions : Table Expr

namespace Expr

mutual

/-- The value of an expression, with calls left to `call`. -/
def evalWith (scope : Scope) (call : String → List Value → Evaluation Value) : Expr → Evaluation Value
  | const v => pure v
  | property name => pure ((scope.event.bind (·.get? name)).getD .null)
  | var name => pure ((scope.vars.get? name).getD .null)
  | aggregator name => pure ((scope.aggregators.get? name).getD .null)
  | argument index => return ((← get).argument? index).getD .null
  | .call function arguments => do call function (← evalAll scope call arguments)
  | choose condition yes no => do
    if (← evalWith scope call condition).truthy then evalWith scope call yes
    else evalWith scope call no
  | apply op operands => do
    match op.fold (← evalAll scope call operands) with
    | .ok v => return v
    | .error e => throw e

def evalAll (scope : Scope) (call : String → List Value → Evaluation Value) :
    List Expr → Evaluation (List Value)
  | [] => pure []
  | e :: es => do return (← evalWith scope call e) :: (← evalAll scope call es)

end

end Expr

/-- The call of a function on argument values, with room for so many frames. -/
def Scope.callWith (scope : Scope) : Nat → String → List Value → Evaluation Value
  | 0, function, _ => Evaluation.refuseCall function
  | room + 1, function, arguments =>
    Evaluation.inFrame arguments
      (match scope.functions.get? function with
      | some body => body.evalWith scope (scope.callWith room)
      | none => pure .null)

def Expr.eval (scope : Scope) (e : Expr) : Evaluation Value := do
  e.evalWith scope (scope.callWith (← get).room)

def Expr.run (scope : Scope) (e : Expr) (stack : CallStack) : Except EvalError Value × CallStack :=
  (e.eval scope).run.run stack

end EventFold
