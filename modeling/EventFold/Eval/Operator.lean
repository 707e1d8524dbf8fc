import EventFold.Eval.CallStack

/-!
# Operators on values

An operator combines two values; with more operands it is folded from the left. The numeric operators
take both values as numbers, the left one first, and blame the first that is none.
-/

namespace EventFold.Operator

def numeric? : Operator → Option (Number → Number → Value)
  | add => some fun x y => .number (x + y)
  | subtract => some fun x y => .number (x - y)
  | multiply => some fun x y => .number (x * y)
  | divide => some fun x y => .number (x / y)
  | remainder => some fun x y => .number (x.remainder y)
  | less => some fun x y => .bool (x < y)
  | greater => some fun x y => .bool (y < x)
  | atMost => some fun x y => .bool (x ≤ y)
  | atLeast => some fun x y => .bool (y ≤ x)
  | equal | notEqual | and | or => none

def operand (op : Operator) (v : Value) : Except EvalError Number :=
  match v.toNumber? with
  | some x => .ok x
  | none => .error (.notANumber op v)

/-- The operator on two values. The connectives yield one of the two as it is. -/
def combine (op : Operator) (left right : Value) : Except EvalError Value :=
  match op with
  | equal => .ok (.bool (left.agrees right))
  | notEqual => .ok (.bool !(left.agrees right))
  | and => .ok (if left.truthy then right else left)
  | or => .ok (if left.truthy then left else right)
  | op =>
    match op.numeric? with
    | some f => do return f (← op.operand left) (← op.operand right)
    | none => .ok .null

/-- The operator folded from the left. One value stands for itself, none at all is null. -/
def fold (op : Operator) : List Value → Except EvalError Value
  | [] => .ok .null
  | v :: vs => vs.foldlM op.combine v

end EventFold.Operator
