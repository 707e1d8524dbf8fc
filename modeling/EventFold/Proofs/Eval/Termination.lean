import EventFold.Proofs.Eval.Relevance
import Mathlib.Logic.Relation
import Mathlib.Order.WellFounded

/-!
# Evaluation ends

`Evaluates` states the clauses of evaluation one by one, with the stack handed on from each evaluation to the
next. Nothing bounds how deeply evaluations are nested there: the body of a function is evaluated like any other
expression, and a derivation is a run that has come to its end.

`Descends` are the evaluations that an evaluation asks for. Each leaves less room on the stack, or as much room
for a smaller expression. So no evaluation asks forever, and there is a run for each, which is the one that
`Expr.run` computes.

Nothing is said here about the memory that a run takes.
-/

namespace EventFold

theorem CallStack.enter_eq_ok_iff {s t : CallStack} {function : String} {vs : List Value} :
    s.enter function vs = .ok t ↔ s.depth < s.limit ∧ t = s.push vs := by
  unfold enter room
  split
  · rename_i hfull
    constructor
    · intro h
      cases h
    · rintro ⟨hroom, -⟩
      omega
  · rename_i hroom
    constructor
    · intro h
      cases h
      exact ⟨by omega, rfl⟩
    · rintro ⟨-, rfl⟩
      rfl

namespace Expr

def size (e : Expr) : Nat := e.nodes.length

mutual

/-- An expression evaluates on a stack to a result and leaves a stack. -/
inductive Evaluates (scope : Scope) : Expr → CallStack → Except EvalError Value → CallStack → Prop where
  | const {v : Value} {s : CallStack} : Evaluates scope (.const v) s (.ok v) s
  | property {name : String} {s : CallStack} :
    Evaluates scope (.property name) s (.ok ((scope.event.bind (·.get? name)).getD .null)) s
  | var {name : String} {s : CallStack} :
    Evaluates scope (.var name) s (.ok ((scope.vars.get? name).getD .null)) s
  | aggregator {name : String} {s : CallStack} :
    Evaluates scope (.aggregator name) s (.ok ((scope.aggregators.get? name).getD .null)) s
  | argument {index : Nat} {s : CallStack} :
    Evaluates scope (.argument index) s (.ok ((s.argument? index).getD .null)) s
  | undecided {condition yes no : Expr} {s t : CallStack} {error : EvalError} :
    Evaluates scope condition s (.error error) t →
    Evaluates scope (.choose condition yes no) s (.error error) t
  | chosen {condition yes no : Expr} {s t u : CallStack} {v : Value} {r : Except EvalError Value} :
    Evaluates scope condition s (.ok v) t → Evaluates scope (if v.truthy then yes else no) t r u →
    Evaluates scope (.choose condition yes no) s r u
  | noOperands {op : Operator} {operands : List Expr} {s t : CallStack} {error : EvalError} :
    EvaluatesAll scope operands s (.error error) t →
    Evaluates scope (.apply op operands) s (.error error) t
  | folded {op : Operator} {operands : List Expr} {s t : CallStack} {vs : List Value} :
    EvaluatesAll scope operands s (.ok vs) t → Evaluates scope (.apply op operands) s (op.fold vs) t
  | noArguments {function : String} {arguments : List Expr} {s t : CallStack} {error : EvalError} :
    EvaluatesAll scope arguments s (.error error) t →
    Evaluates scope (.call function arguments) s (.error error) t
  | refused {function : String} {arguments : List Expr} {s t : CallStack} {vs : List Value}
    {error : EvalError} :
    EvaluatesAll scope arguments s (.ok vs) t → t.enter function vs = .error error →
    Evaluates scope (.call function arguments) s (.error error) t
  | missing {function : String} {arguments : List Expr} {s t u : CallStack} {vs : List Value} :
    EvaluatesAll scope arguments s (.ok vs) t → t.enter function vs = .ok u →
    scope.functions.get? function = none →
    Evaluates scope (.call function arguments) s (.ok .null) u.pop
  | called {function : String} {arguments : List Expr} {body : Expr} {s t u w : CallStack}
    {vs : List Value} {r : Except EvalError Value} :
    EvaluatesAll scope arguments s (.ok vs) t → t.enter function vs = .ok u →
    scope.functions.get? function = some body → Evaluates scope body u r w →
    Evaluates scope (.call function arguments) s r w.pop

/-- Expressions evaluate from left to right, up to the first that fails. -/
inductive EvaluatesAll (scope : Scope) :
    List Expr → CallStack → Except EvalError (List Value) → CallStack → Prop where
  | nil {s : CallStack} : EvaluatesAll scope [] s (.ok []) s
  | failed {e : Expr} {es : List Expr} {s t : CallStack} {error : EvalError} :
    Evaluates scope e s (.error error) t → EvaluatesAll scope (e :: es) s (.error error) t
  | cons {e : Expr} {es : List Expr} {s t u : CallStack} {v : Value} {r : Except EvalError (List Value)} :
    Evaluates scope e s (.ok v) t → EvaluatesAll scope es t r u →
    EvaluatesAll scope (e :: es) s (r.map (v :: ·)) u

end

/-- The evaluation of an expression on a stack asks for that of another. -/
inductive Descends (scope : Scope) : Expr × CallStack → Expr × CallStack → Prop where
  | condition {condition yes no : Expr} {s : CallStack} :
    Descends scope (.choose condition yes no, s) (condition, s)
  | choice {condition yes no : Expr} {s t : CallStack} {v : Value} :
    Evaluates scope condition s (.ok v) t →
    Descends scope (.choose condition yes no, s) (if v.truthy then yes else no, t)
  | operand {op : Operator} {before after : List Expr} {e : Expr} {s t : CallStack} {vs : List Value} :
    EvaluatesAll scope before s (.ok vs) t → Descends scope (.apply op (before ++ e :: after), s) (e, t)
  | argument {function : String} {before after : List Expr} {e : Expr} {s t : CallStack}
    {vs : List Value} :
    EvaluatesAll scope before s (.ok vs) t →
    Descends scope (.call function (before ++ e :: after), s) (e, t)
  | body {function : String} {arguments : List Expr} {body : Expr} {s t u : CallStack} {vs : List Value} :
    EvaluatesAll scope arguments s (.ok vs) t → t.enter function vs = .ok u →
    scope.functions.get? function = some body → Descends scope (.call function arguments, s) (body, u)

/-- The stacks that there are while an expression is evaluated on a stack. A call of a function that is not
there takes a frame as well. -/
inductive ComesTo (scope : Scope) : Expr × CallStack → CallStack → Prop where
  | start {e : Expr} {s : CallStack} : ComesTo scope (e, s) s
  | frame {function : String} {arguments : List Expr} {s t u : CallStack} {vs : List Value} :
    EvaluatesAll scope arguments s (.ok vs) t → t.enter function vs = .ok u →
    ComesTo scope (.call function arguments, s) u
  | within {a b : Expr × CallStack} {t : CallStack} :
    Descends scope a b → ComesTo scope b t → ComesTo scope a t

variable {scope : Scope} {e : Expr} {es before after : List Expr} {s t u : CallStack} {vs : List Value}
  {r : Except EvalError Value} {a b : Expr × CallStack}

section Stack

mutual

theorem Evaluates.stack_eq {e : Expr} {s t : CallStack} {r : Except EvalError Value} :
    Evaluates scope e s r t → t = s
  | .const | .property | .var | .aggregator | .argument => rfl
  | .undecided h => h.stack_eq
  | .chosen h hchosen => hchosen.stack_eq.trans h.stack_eq
  | .noOperands h => h.stack_eq
  | .folded h => h.stack_eq
  | .noArguments h => h.stack_eq
  | .refused h _ => h.stack_eq
  | .missing h henter _ => by
    rw [(CallStack.enter_eq_ok_iff.mp henter).2, CallStack.pop_push]
    exact h.stack_eq
  | .called h henter _ hbody => by
    rw [hbody.stack_eq, (CallStack.enter_eq_ok_iff.mp henter).2, CallStack.pop_push]
    exact h.stack_eq

theorem EvaluatesAll.stack_eq {es : List Expr} {s t : CallStack} {rs : Except EvalError (List Value)} :
    EvaluatesAll scope es s rs t → t = s
  | .nil => rfl
  | .failed h => h.stack_eq
  | .cons h hrest => hrest.stack_eq.trans h.stack_eq

end

end Stack

section Descent

theorem size_le_of_mem (h : e ∈ es) : e.size ≤ (nodesAll es).length := by
  induction es with
  | nil => cases h
  | cons d ds ih =>
    rw [nodesAll, List.length_append]
    rcases List.mem_cons.mp h with rfl | hmem
    · exact Nat.le_add_right _ _
    · exact Nat.le_add_left_of_le (ih hmem)

theorem size_choose (condition yes no : Expr) :
    (choose condition yes no).size = condition.size + yes.size + no.size + 1 := by
  simp [size, nodes, Nat.add_assoc]

theorem size_apply (op : Operator) (operands : List Expr) :
    (apply op operands).size = (nodesAll operands).length + 1 := by
  simp [size, nodes]

theorem size_call (function : String) (arguments : List Expr) :
    (Expr.call function arguments).size = (nodesAll arguments).length + 1 := by
  simp [size, nodes]

/-- How far an evaluation is from its end: the frames that the stack has room for, then the expression. -/
def measure (a : Expr × CallStack) : Nat × Nat := (a.2.limit - a.2.depth, a.1.size)

/-- A part of the expression is evaluated on the same stack. -/
theorem measure_lt_of_size_lt {d : Expr} (hstack : t = s) (hsize : d.size < e.size) :
    Prod.Lex (· < ·) (· < ·) (measure (d, t)) (measure (e, s)) := by
  unfold measure
  rw [hstack]
  exact .right _ hsize

/-- The body of a function is evaluated on a stack with one frame more. Its size does not matter. -/
theorem measure_lt_of_push {body : Expr} (hroom : s.depth < s.limit) :
    Prod.Lex (· < ·) (· < ·) (measure (body, s.push vs)) (measure (e, s)) := by
  unfold measure
  rw [CallStack.depth_push, CallStack.limit_push]
  exact .left _ _ (Nat.sub_succ_lt_self _ _ hroom)

theorem Descends.measure_lt (h : Descends scope a b) :
    Prod.Lex (· < ·) (· < ·) (measure b) (measure a) := by
  cases h with
  | condition =>
    refine measure_lt_of_size_lt rfl ?_
    rw [size_choose]
    omega
  | choice hcondition =>
    refine measure_lt_of_size_lt hcondition.stack_eq ?_
    rw [size_choose]
    split <;> omega
  | operand hbefore =>
    refine measure_lt_of_size_lt hbefore.stack_eq ?_
    rw [size_apply]
    exact Nat.lt_succ_of_le (size_le_of_mem (List.mem_append_right _ List.mem_cons_self))
  | argument hbefore =>
    refine measure_lt_of_size_lt hbefore.stack_eq ?_
    rw [size_call]
    exact Nat.lt_succ_of_le (size_le_of_mem (List.mem_append_right _ List.mem_cons_self))
  | body harguments henter _ =>
    obtain ⟨hroom, rfl⟩ := CallStack.enter_eq_ok_iff.mp henter
    obtain rfl := harguments.stack_eq
    exact measure_lt_of_push hroom

theorem wellFounded_descends (scope : Scope) : WellFounded (flip (Descends scope)) :=
  Subrelation.wf (fun h => Descends.measure_lt h)
    (InvImage.wf measure (Prod.lex ⟨_, wellFounded_lt⟩ ⟨_, wellFounded_lt⟩).wf)

end Descent

section Existence

theorem EvaluatesAll.snoc {v : Value} (h : EvaluatesAll scope before s (.ok vs) t)
    (he : Evaluates scope e t (.ok v) u) : EvaluatesAll scope (before ++ [e]) s (.ok (vs ++ [v])) u := by
  induction before generalizing s vs with
  | nil =>
    cases h
    exact .cons he .nil
  | cons d ds ih =>
    generalize hr : (Except.ok vs : Except EvalError (List Value)) = rs at h
    cases h with
    | failed _ => cases hr
    | @cons _ _ _ _ _ w rs hd hds =>
      cases rs with
      | error error => cases hr
      | ok ws =>
        cases hr
        exact .cons hd (ih hds)

/-- Expressions behind some that did not fail evaluate if each does that is come to. -/
theorem exists_evaluatesAll (hbefore : EvaluatesAll scope before s (.ok vs) s)
    (hasked : ∀ first d rest ws, before ++ after = first ++ d :: rest →
      EvaluatesAll scope first s (.ok ws) s → ∃ r, Evaluates scope d s r s) :
    ∃ rs, EvaluatesAll scope after s rs s := by
  induction after generalizing before vs with
  | nil => exact ⟨_, .nil⟩
  | cons e after ih =>
    obtain ⟨r, he⟩ := hasked before e after vs rfl hbefore
    cases r with
    | error error => exact ⟨_, .failed he⟩
    | ok v =>
      obtain ⟨rs, hrest⟩ := ih (hbefore.snoc he) fun first d rest ws heq hfirst =>
        hasked first d rest ws (by rw [← heq, List.append_assoc, List.singleton_append]) hfirst
      exact ⟨_, .cons he hrest⟩

/-- A call that has come to its end takes its frame off again. -/
theorem exists_evaluates_call {function : String} {arguments : List Expr}
    (harguments : EvaluatesAll scope arguments s (.ok vs) s)
    (hasked : ∀ u body, s.enter function vs = .ok u → scope.functions.get? function = some body →
      ∃ r, Evaluates scope body u r u) : ∃ r, Evaluates scope (.call function arguments) s r s := by
  cases henter : s.enter function vs with
  | error error => exact ⟨_, .refused harguments henter⟩
  | ok u =>
    have hpop : u.pop = s := by rw [(CallStack.enter_eq_ok_iff.mp henter).2, CallStack.pop_push]
    cases hbody : scope.functions.get? function with
    | none =>
      have hrun := Evaluates.missing harguments henter hbody
      rw [hpop] at hrun
      exact ⟨_, hrun⟩
    | some body =>
      obtain ⟨r, hresult⟩ := hasked u body henter hbody
      have hrun := Evaluates.called harguments henter hbody hresult
      rw [hpop] at hrun
      exact ⟨r, hrun⟩

/-- By induction along what evaluations ask for, which has an end. -/
theorem exists_evaluates (scope : Scope) (a : Expr × CallStack) : ∃ r, Evaluates scope a.1 a.2 r a.2 := by
  induction a using (wellFounded_descends scope).induction with
  | _ a ih =>
    obtain ⟨e, s⟩ := a
    have hasked : ∀ {d t}, Descends scope (e, s) (d, t) → ∃ r, Evaluates scope d t r t :=
      fun hdescends => ih _ hdescends
    cases e with
    | const v => exact ⟨_, .const⟩
    | property name => exact ⟨_, .property⟩
    | var name => exact ⟨_, .var⟩
    | aggregator name => exact ⟨_, .aggregator⟩
    | argument index => exact ⟨_, .argument⟩
    | choose condition yes no =>
      obtain ⟨r, hcondition⟩ := hasked .condition
      cases r with
      | error error => exact ⟨_, .undecided hcondition⟩
      | ok v =>
        obtain ⟨r, hchosen⟩ := hasked (.choice hcondition)
        exact ⟨_, .chosen hcondition hchosen⟩
    | apply op operands =>
      obtain ⟨rs, hoperands⟩ := exists_evaluatesAll .nil fun first d rest ws heq hfirst =>
        hasked (by rw [← List.nil_append operands, heq]; exact .operand hfirst)
      cases rs with
      | error error => exact ⟨_, .noOperands hoperands⟩
      | ok vs => exact ⟨_, .folded hoperands⟩
    | call function arguments =>
      obtain ⟨rs, harguments⟩ := exists_evaluatesAll .nil fun first d rest ws heq hfirst =>
        hasked (by rw [← List.nil_append arguments, heq]; exact .argument hfirst)
      cases rs with
      | error error => exact ⟨_, .noArguments harguments⟩
      | ok vs =>
        exact exists_evaluates_call harguments fun u body henter hbody =>
          hasked (.body harguments henter hbody)

end Existence

section Computed

open Evaluation

/-- The results of expressions that are evaluated in turn, or the first failure. -/
def resultsOn (scope : Scope) (es : List Expr) (s : CallStack) : Except EvalError (List Value) :=
  (evalAll scope (scope.callWith s.room) es).resultOn s

theorem resultsOn_nil (s : CallStack) : resultsOn scope [] s = .ok [] := by
  unfold resultsOn evalAll
  rfl

theorem eval_resultOn (e : Expr) (s : CallStack) :
    (e.eval scope).resultOn s = (e.evalWith scope (scope.callWith s.room)).resultOn s := rfl

theorem evalWith_callWith_balanced (e : Expr) (room : Nat) : Balanced (e.evalWith scope (scope.callWith room)) :=
  evalWith_balanced (scope.callWith_balanced room) e

theorem evalAll_callWith_balanced (es : List Expr) (room : Nat) :
    Balanced (evalAll scope (scope.callWith room) es) :=
  evalAll_balanced (scope.callWith_balanced room) es

theorem resultsOn_cons (e : Expr) (es : List Expr) (s : CallStack) : resultsOn scope (e :: es) s =
    ((e.eval scope).resultOn s).bind fun v => (resultsOn scope es s).map (v :: ·) := by
  unfold resultsOn
  rw [evalAll, (evalWith_callWith_balanced e s.room).resultOn_bind, eval_resultOn]
  congr 1
  funext v
  rw [(evalAll_callWith_balanced es s.room).resultOn_bind]
  cases (evalAll scope (scope.callWith s.room) es).resultOn s <;> rfl

theorem resultOn_choose (condition yes no : Expr) (s : CallStack) :
    ((choose condition yes no).eval scope).resultOn s =
      ((condition.eval scope).resultOn s).bind fun v =>
        ((if v.truthy then yes else no).eval scope).resultOn s := by
  rw [eval_resultOn, evalWith, (evalWith_callWith_balanced condition s.room).resultOn_bind, eval_resultOn]
  congr 1
  funext v
  split <;> rfl

theorem resultOn_apply (op : Operator) (operands : List Expr) (s : CallStack) :
    ((apply op operands).eval scope).resultOn s = (resultsOn scope operands s).bind op.fold := by
  rw [eval_resultOn, evalWith, (evalAll_callWith_balanced operands s.room).resultOn_bind, resultsOn]
  congr 1
  funext vs
  cases op.fold vs <;> rfl

/-- The room that the calls in a body are left with is that of the stack on which the body is evaluated. -/
theorem callWith_resultOn (function : String) (vs : List Value) (s : CallStack) :
    (scope.callWith s.room function vs).resultOn s = (s.enter function vs).bind fun u =>
      match scope.functions.get? function with
      | some body => (body.eval scope).resultOn u
      | none => .ok .null := by
  unfold CallStack.enter
  cases hroom : s.room with
  | zero => rfl
  | succ room =>
    have hpushed : (s.push vs).room = room := by
      unfold CallStack.room at hroom ⊢
      rw [CallStack.depth_push, CallStack.limit_push]
      omega
    cases hbody : scope.functions.get? function with
    | none =>
      simp only [Scope.callWith, hbody]
      rfl
    | some body =>
      simp only [Scope.callWith, hbody, eval_resultOn, ← hpushed]
      rfl

theorem resultOn_call (function : String) (arguments : List Expr) (s : CallStack) :
    ((Expr.call function arguments).eval scope).resultOn s =
      (resultsOn scope arguments s).bind fun vs => (s.enter function vs).bind fun u =>
        match scope.functions.get? function with
        | some body => (body.eval scope).resultOn u
        | none => .ok .null := by
  rw [eval_resultOn, evalWith, (evalAll_callWith_balanced arguments s.room).resultOn_bind, resultsOn]
  congr 1
  funext vs
  exact callWith_resultOn function vs s

mutual

theorem Evaluates.resultOn_eq {e : Expr} {s t : CallStack} {r : Except EvalError Value} :
    Evaluates scope e s r t → (e.eval scope).resultOn s = r
  | .const | .property | .var | .aggregator | .argument => by rw [eval_resultOn, evalWith]; rfl
  | .undecided h => by rw [resultOn_choose, h.resultOn_eq]; rfl
  | .chosen h hchosen => by
    have hresult := hchosen.resultOn_eq
    rw [h.stack_eq] at hresult
    rw [resultOn_choose, h.resultOn_eq]
    exact hresult
  | .noOperands h => by rw [resultOn_apply, h.resultsOn_eq]; rfl
  | .folded h => by rw [resultOn_apply, h.resultsOn_eq]; rfl
  | .noArguments h => by rw [resultOn_call, h.resultsOn_eq]; rfl
  | .refused h henter => by
    rw [h.stack_eq] at henter
    rw [resultOn_call, h.resultsOn_eq]
    simp only [Except.bind, henter]
  | .missing h henter hbody => by
    rw [h.stack_eq] at henter
    rw [resultOn_call, h.resultsOn_eq]
    simp only [Except.bind, henter, hbody]
  | .called h henter hbody hrun => by
    rw [h.stack_eq] at henter
    rw [resultOn_call, h.resultsOn_eq]
    simp only [Except.bind, henter, hbody, hrun.resultOn_eq]

theorem EvaluatesAll.resultsOn_eq {es : List Expr} {s t : CallStack}
    {rs : Except EvalError (List Value)} : EvaluatesAll scope es s rs t → resultsOn scope es s = rs
  | .nil => resultsOn_nil s
  | .failed h => by rw [resultsOn_cons, h.resultOn_eq]; rfl
  | .cons h hrest => by
    have hresults := hrest.resultsOn_eq
    rw [h.stack_eq] at hresults
    rw [resultsOn_cons, h.resultOn_eq, hresults]
    rfl

end

theorem evaluates_iff : Evaluates scope e s r t ↔ r = (e.run scope s).1 ∧ t = s := by
  have hresult : (e.run scope s).1 = (e.eval scope).resultOn s := by rw [run_eq]
  constructor
  · intro h
    exact ⟨by rw [hresult, h.resultOn_eq], h.stack_eq⟩
  · rintro ⟨rfl, rfl⟩
    obtain ⟨r, h⟩ := exists_evaluates scope (e, t)
    rw [hresult, h.resultOn_eq]
    exact h

end Computed

section Frames

theorem Descends.limit_eq (h : Descends scope a b) : b.2.limit = a.2.limit := by
  cases h with
  | condition => rfl
  | choice hcondition => rw [hcondition.stack_eq]
  | operand hbefore => rw [hbefore.stack_eq]
  | argument hbefore => rw [hbefore.stack_eq]
  | body harguments henter _ =>
    rw [(CallStack.enter_eq_ok_iff.mp henter).2, CallStack.limit_push, harguments.stack_eq]

theorem depth_le_of_enter {function : String} (h : s.enter function vs = .ok u) :
    u.depth ≤ max s.depth s.limit := by
  obtain ⟨hroom, rfl⟩ := CallStack.enter_eq_ok_iff.mp h
  rw [CallStack.depth_push]
  omega

theorem Descends.depth_le (h : Descends scope a b) : b.2.depth ≤ max a.2.depth a.2.limit := by
  cases h with
  | condition => exact Nat.le_max_left _ _
  | choice hcondition =>
    rw [hcondition.stack_eq]
    exact Nat.le_max_left _ _
  | operand hbefore =>
    rw [hbefore.stack_eq]
    exact Nat.le_max_left _ _
  | argument hbefore =>
    rw [hbefore.stack_eq]
    exact Nat.le_max_left _ _
  | body harguments henter _ =>
    obtain rfl := harguments.stack_eq
    exact depth_le_of_enter henter

theorem ComesTo.depth_le (h : ComesTo scope a t) : t.depth ≤ max a.2.depth a.2.limit := by
  induction h with
  | start => exact Nat.le_max_left _ _
  | frame harguments henter =>
    obtain rfl := harguments.stack_eq
    exact depth_le_of_enter henter
  | within hdescends _ ih =>
    have hdepth := hdescends.depth_le
    rw [hdescends.limit_eq] at ih
    omega

/-- Every evaluation has one run, which ends with a result and the stack as it was. All that it asks for on the
way is nearer to the end, by the room on the stack and then by the size of the expression, and there are never
more frames than the limit or, if those were more, than there were at the beginning. -/
theorem terminates (scope : Scope) (e : Expr) (s : CallStack) :
    (∃ result, e.run scope s = (result, s) ∧ ∀ r t, Evaluates scope e s r t ↔ r = result ∧ t = s) ∧
    (∀ a b, Descends scope a b → Prod.Lex (· < ·) (· < ·)
      (b.2.limit - b.2.depth, b.1.size) (a.2.limit - a.2.depth, a.1.size)) ∧
    ∀ t, ComesTo scope (e, s) t → t.depth ≤ max s.depth s.limit := by
  refine ⟨⟨(e.run scope s).1, ?_, fun r t => evaluates_iff⟩, fun a b h => h.measure_lt, fun t h => h.depth_le⟩
  exact Prod.ext rfl (e.eval_balanced scope s)

/-- A function that calls itself without end, on the value of another one that is not there. -/
def endless : Scope :=
  ⟨none, ∅, ∅, .ofList [("again", .call "again" [.call "absent" []])]⟩

/-- The second frame is the last there is room for. With it the value is asked for once more. -/
theorem terminates_endless :
    (Expr.call "again" []).run endless (.empty 2) = (.error (.callDepthExceeded "absent" 2), .empty 2) ∧
    Evaluates endless (.call "again" []) (.empty 2) (.error (.callDepthExceeded "absent" 2)) (.empty 2) ∧
    Descends endless (.call "again" [], .empty 2) (.call "again" [.call "absent" []], ⟨[[]], 2⟩) ∧
    Prod.Lex (· < ·) (· < ·) (1, (Expr.call "again" [.call "absent" []]).size)
      (2, (Expr.call "again" []).size) ∧
    ComesTo endless (.call "again" [], .empty 2) ⟨[[], []], 2⟩ ∧ 2 ≤ max 0 2 := by
  obtain ⟨⟨result, hrun, hruns⟩, hnearer, hframes⟩ := terminates endless (.call "again" []) (.empty 2)
  have hexceeded : (Expr.call "again" []).run endless (.empty 2) =
      (.error (.callDepthExceeded "absent" 2), .empty 2) := by decide +kernel
  have hresult : .error (.callDepthExceeded "absent" 2) = result := by
    rw [hexceeded] at hrun
    exact congrArg Prod.fst hrun
  have hdescends : Descends endless (.call "again" [], .empty 2)
      (.call "again" [.call "absent" []], ⟨[[]], 2⟩) := .body .nil rfl rfl
  have habsent : Descends endless (.call "again" [.call "absent" []], ⟨[[]], 2⟩)
      (.call "absent" [], ⟨[[]], 2⟩) :=
    @Descends.argument endless "again" [] [] (.call "absent" []) _ _ [] .nil
  have hcomes : ComesTo endless (.call "again" [], .empty 2) ⟨[[], []], 2⟩ :=
    .within hdescends (.within habsent (.frame .nil rfl))
  exact ⟨hexceeded, (hruns _ _).mpr ⟨hresult, rfl⟩, hdescends, hnearer _ _ hdescends, hcomes, hframes _ hcomes⟩

end Frames

end Expr

end EventFold
