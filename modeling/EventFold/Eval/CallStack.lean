import EventFold.Expr.Basic

/-!
# Argument frames

Evaluation keeps a frame of argument values for every call that is under way. The stack has a limit;
a call that would go beyond it fails. `Evaluation` threads the stack, which survives a failure.
-/

namespace EventFold

/-- Why an evaluation fails. A reference to something that is not there is no failure: it is null. -/
inductive EvalError where
  | notANumber (op : Operator) (value : Value)
  | callDepthExceeded (function : String) (limit : Nat)
deriving DecidableEq

def EvalError.message : EvalError → String
  | notANumber op value => "`" ++ op.keyword ++ "` expected a number, found " ++ value.shown
  | callDepthExceeded function limit =>
    "call depth limit " ++ toString limit ++ " exceeded calling `" ++ function ++ "`"

/-- The argument frames of the calls under way, the innermost first. -/
structure CallStack where
  frames : List (List Value)
  limit : Nat
deriving DecidableEq, Inhabited

namespace CallStack

def defaultLimit : Nat := 2048

def empty (limit : Nat) : CallStack := ⟨[], limit⟩

def depth (s : CallStack) : Nat := s.frames.length

def room (s : CallStack) : Nat := s.limit - s.depth

def argument? (s : CallStack) (index : Nat) : Option Value :=
  s.frames.head?.bind (·[index]?)

def push (s : CallStack) (arguments : List Value) : CallStack :=
  { s with frames := arguments :: s.frames }

def pop (s : CallStack) : CallStack :=
  { s with frames := s.frames.tail }

def enter (s : CallStack) (function : String) (arguments : List Value) : Except EvalError CallStack :=
  match s.room with
  | 0 => .error (.callDepthExceeded function s.limit)
  | _ + 1 => .ok (s.push arguments)

@[simp] theorem pop_push (s : CallStack) (arguments : List Value) : (s.push arguments).pop = s := rfl

@[simp] theorem depth_push (s : CallStack) (arguments : List Value) :
    (s.push arguments).depth = s.depth + 1 := rfl

@[simp] theorem limit_push (s : CallStack) (arguments : List Value) :
    (s.push arguments).limit = s.limit := rfl

end CallStack

/-- A computation that may fail and threads the stack; a failure leaves the stack it happened with. -/
abbrev Evaluation := ExceptT EvalError (StateM CallStack)

namespace Evaluation

variable {α : Type}

/-- Runs a computation in a frame of its own, which is taken off again however it ends. -/
def inFrame (arguments : List Value) (body : Evaluation α) : Evaluation α :=
  ExceptT.mk fun s =>
    let (result, s) := body.run.run (s.push arguments)
    (result, s.pop)

def refuseCall (function : String) : Evaluation α :=
  do throw (.callDepthExceeded function (← get).limit)

end Evaluation

end EventFold
