import EventFold.Proofs.Eval.Termination
import EventFold.Proofs.Results

/-!
# Two evaluations side by side

An expression is evaluated on two stacks, with calls that have room for more or fewer frames. A relation between
the two results that sequences keep is settled by the calls in the expression and by what its arguments stand
for: `evalWith_related` walks over the expression once for all such relations. On the second stack, other
expressions may stand in place of the arguments.

How far the calls are related is not settled here. That takes an induction on the room, which begins and goes on
differently from one relation to the next; `callWith_related` is its step.
-/

namespace EventFold

namespace Operator

variable {op : Operator} {v left right : Value} {vs : List Value} {e : EvalError}

theorem operand_eq_error (h : op.operand v = .error e) : e = .notANumber op v := by
  unfold operand at h
  split at h
  · cases h
  · cases h
    rfl

theorem combine_eq_error (h : op.combine left right = .error e) : ∃ v, e = .notANumber op v := by
  unfold combine at h
  split at h
  case h_5 =>
    split at h
    · rcases bind_eq_error_iff.mp h with hleft | ⟨x, -, hrest⟩
      · exact ⟨left, operand_eq_error hleft⟩
      · rcases bind_eq_error_iff.mp hrest with hright | ⟨y, -, hvalue⟩
        · exact ⟨right, operand_eq_error hright⟩
        · cases hvalue
    · cases h
  all_goals cases h

/-- Operators fail for want of a number only. -/
theorem fold_eq_error (h : op.fold vs = .error e) : ∃ v, e = .notANumber op v := by
  cases vs with
  | nil => cases h
  | cons v vs =>
    unfold fold at h
    induction vs generalizing v with
    | nil => cases h
    | cons w vs ih =>
      rcases bind_eq_error_iff.mp h with hfirst | ⟨u, -, hrest⟩
      · exact combine_eq_error hfirst
      · exact ih u hrest

end Operator

/-- A call was refused for want of room. -/
def Exceeds {α : Type} (r : Except EvalError α) : Prop :=
  ∃ function limit, r = .error (.callDepthExceeded function limit)

/-- A relation that holds of equal values and of equal complaints about operands, and that sequences keep. -/
structure Compatible (R : (α : Type) → Except EvalError α → Except EvalError α → Prop) : Prop where
  ok {α : Type} (a : α) : R α (.ok a) (.ok a)
  notANumber {α : Type} (op : Operator) (v : Value) :
    R α (.error (.notANumber op v)) (.error (.notANumber op v))
  bind {α β : Type} {x y : Except EvalError α} {p q : α → Except EvalError β} :
    R α x y → (∀ a, R β (p a) (q a)) → R β (x.bind p) (y.bind q)

variable {R : (α : Type) → Except EvalError α → Except EvalError α → Prop}

theorem Compatible.fold (h : Compatible R) (op : Operator) (vs : List Value) :
    R Value (op.fold vs) (op.fold vs) := by
  cases hfold : op.fold vs with
  | ok v => exact h.ok v
  | error e =>
    obtain ⟨v, rfl⟩ := Operator.fold_eq_error hfold
    exact h.notANumber op v

namespace Expr

mutual

/-- The expression with others in place of its arguments. The functions that it calls keep theirs. -/
def instantiate (leaf : Nat → Expr) : Expr → Expr
  | const v => const v
  | property name => property name
  | var name => var name
  | aggregator name => aggregator name
  | argument index => leaf index
  | .call function arguments => .call function (instantiateAll leaf arguments)
  | choose condition yes no =>
    choose (instantiate leaf condition) (instantiate leaf yes) (instantiate leaf no)
  | apply op operands => apply op (instantiateAll leaf operands)

def instantiateAll (leaf : Nat → Expr) : List Expr → List Expr
  | [] => []
  | e :: es => instantiate leaf e :: instantiateAll leaf es

end

mutual

@[simp] theorem instantiate_argument : ∀ e : Expr, e.instantiate argument = e
  | const _ => by rw [instantiate]
  | property _ => by rw [instantiate]
  | var _ => by rw [instantiate]
  | aggregator _ => by rw [instantiate]
  | argument _ => by rw [instantiate]
  | .call _ arguments => by rw [instantiate, instantiateAll_argument arguments]
  | choose condition yes no => by
    rw [instantiate, instantiate_argument condition, instantiate_argument yes, instantiate_argument no]
  | apply _ operands => by rw [instantiate, instantiateAll_argument operands]

theorem instantiateAll_argument : ∀ es : List Expr, instantiateAll argument es = es
  | [] => by rw [instantiateAll]
  | e :: es => by rw [instantiateAll, instantiate_argument e, instantiateAll_argument es]

end

section Callees

def calleesAll (es : List Expr) : List String := (nodesAll es).filterMap callee?

theorem callees_call (function : String) (arguments : List Expr) :
    (Expr.call function arguments).callees = function :: calleesAll arguments := by
  have hcallee : callee? (.call function arguments) = some function := rfl
  rw [callees, nodes, List.filterMap_cons_some hcallee, calleesAll]

theorem callees_choose (condition yes no : Expr) :
    (choose condition yes no).callees = condition.callees ++ yes.callees ++ no.callees := by
  rw [callees, nodes, List.filterMap_cons_none rfl, List.filterMap_append, List.filterMap_append]
  rfl

theorem callees_apply (op : Operator) (operands : List Expr) :
    (apply op operands).callees = calleesAll operands := by
  rw [callees, nodes, List.filterMap_cons_none rfl, calleesAll]

theorem calleesAll_cons (e : Expr) (es : List Expr) : calleesAll (e :: es) = e.callees ++ calleesAll es := by
  rw [calleesAll, nodesAll, List.filterMap_append]
  rfl

end Callees

section Walk

open Evaluation

variable {scope : Scope} {a b : Nat} {s t : CallStack} {leaf : Nat → Expr}

/-- The calls of a function have related results, whatever the values that it is called on. -/
def CallsRelated (R : (α : Type) → Except EvalError α → Except EvalError α → Prop) (scope : Scope) (a b : Nat)
    (s t : CallStack) (name : String) : Prop :=
  ∀ vs, R Value ((scope.callWith a name vs).resultOn s) ((scope.callWith b name vs).resultOn t)

mutual

theorem evalWith_related (h : Compatible R)
    (hleaf : ∀ i, R Value (.ok ((s.argument? i).getD .null))
      (((leaf i).evalWith scope (scope.callWith b)).resultOn t)) :
    ∀ e : Expr, (∀ name ∈ e.callees, CallsRelated R scope a b s t name) →
      R Value ((e.evalWith scope (scope.callWith a)).resultOn s)
        (((e.instantiate leaf).evalWith scope (scope.callWith b)).resultOn t)
  | const _, _ => by
    simp only [instantiate, evalWith]
    exact h.ok _
  | property _, _ => by
    simp only [instantiate, evalWith]
    exact h.ok _
  | var _, _ => by
    simp only [instantiate, evalWith]
    exact h.ok _
  | aggregator _, _ => by
    simp only [instantiate, evalWith]
    exact h.ok _
  | argument index, _ => by
    rw [instantiate, evalWith]
    exact hleaf index
  | .call _ arguments, hcalls => by
    rw [callees_call, List.forall_mem_cons] at hcalls
    rw [instantiate, evalWith, evalWith, (evalAll_callWith_balanced _ a).resultOn_bind,
      (evalAll_callWith_balanced _ b).resultOn_bind]
    -- The arguments are evaluated before there is a frame of the call, on the stacks as they are.
    exact h.bind (evalAll_related h hleaf arguments hcalls.2) hcalls.1
  | choose condition yes no, hcalls => by
    rw [callees_choose, List.forall_mem_append, List.forall_mem_append] at hcalls
    obtain ⟨⟨hcondition, hyes⟩, hno⟩ := hcalls
    rw [instantiate, evalWith, evalWith, (evalWith_callWith_balanced _ a).resultOn_bind,
      (evalWith_callWith_balanced _ b).resultOn_bind]
    refine h.bind (evalWith_related h hleaf condition hcondition) fun v => ?_
    split
    · exact evalWith_related h hleaf yes hyes
    · exact evalWith_related h hleaf no hno
  | apply op operands, hcalls => by
    rw [callees_apply] at hcalls
    rw [instantiate, evalWith, evalWith, (evalAll_callWith_balanced _ a).resultOn_bind,
      (evalAll_callWith_balanced _ b).resultOn_bind]
    refine h.bind (evalAll_related h hleaf operands hcalls) fun vs => ?_
    have hfold := h.fold op vs
    cases hvalue : op.fold vs with
    | ok v => rwa [hvalue] at hfold
    | error e => rwa [hvalue] at hfold

theorem evalAll_related (h : Compatible R)
    (hleaf : ∀ i, R Value (.ok ((s.argument? i).getD .null))
      (((leaf i).evalWith scope (scope.callWith b)).resultOn t)) :
    ∀ es : List Expr, (∀ name ∈ calleesAll es, CallsRelated R scope a b s t name) →
      R (List Value) ((evalAll scope (scope.callWith a) es).resultOn s)
        ((evalAll scope (scope.callWith b) (instantiateAll leaf es)).resultOn t)
  | [], _ => by
    rw [instantiateAll, evalAll]
    exact h.ok _
  | e :: es, hcalls => by
    rw [calleesAll_cons, List.forall_mem_append] at hcalls
    rw [instantiateAll, evalAll, evalAll, (evalWith_callWith_balanced _ a).resultOn_bind,
      (evalWith_callWith_balanced _ b).resultOn_bind]
    refine h.bind (evalWith_related h hleaf e hcalls.1) fun v => ?_
    rw [(evalAll_callWith_balanced _ a).resultOn_bind, (evalAll_callWith_balanced _ b).resultOn_bind]
    exact h.bind (evalAll_related h hleaf es hcalls.2) fun _ => h.ok _

end

/-- Arguments stand for the same on stacks with the same innermost frame, so they may stay. -/
theorem evalWith_related_of_frame (h : Compatible R) (hframe : s.frames.head? = t.frames.head?) (e : Expr)
    (hcalls : ∀ name ∈ e.callees, CallsRelated R scope a b s t name) :
    R Value ((e.evalWith scope (scope.callWith a)).resultOn s)
      ((e.evalWith scope (scope.callWith b)).resultOn t) := by
  have hleaf : ∀ i, R Value (.ok ((s.argument? i).getD .null))
      (((argument i).evalWith scope (scope.callWith b)).resultOn t) := by
    intro i
    rw [CallStack.argument?, hframe, evalWith]
    exact h.ok _
  have hrelated := evalWith_related h hleaf e hcalls
  rwa [instantiate_argument] at hrelated

/-- Calls that are let in are related if the calls in the body are, on the stacks with a frame more. -/
theorem callWith_related (h : Compatible R) {name : String}
    (hcalls : ∀ vs body, scope.functions.get? name = some body → ∀ callee ∈ body.callees,
      CallsRelated R scope a b (s.push vs) (t.push vs) callee) :
    CallsRelated R scope (a + 1) (b + 1) s t name := by
  intro vs
  rw [Scope.callWith, Scope.callWith, resultOn_inFrame, resultOn_inFrame]
  cases hbody : scope.functions.get? name with
  | none => exact h.ok _
  | some body =>
    have hframe : (s.push vs).frames.head? = (t.push vs).frames.head? := rfl
    exact evalWith_related_of_frame h hframe body (hcalls vs body hbody)

end Walk

end Expr

end EventFold
