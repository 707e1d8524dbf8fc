import EventFold.Eval.Basic

/-!
# Frames come off again

Every evaluation leaves the stack as it found it, frame for frame, whether it succeeds or fails. So an
evaluation is known by its result alone, and the result of one never depends on those before it.
-/

namespace EventFold

namespace Evaluation

variable {α β : Type} {m : Evaluation α} {s : CallStack}

def resultOn (m : Evaluation α) (s : CallStack) : Except EvalError α := (m.run.run s).1

def Balanced (m : Evaluation α) : Prop := ∀ s, (m.run.run s).2 = s

theorem Balanced.run_eq (h : Balanced m) (s : CallStack) : m.run.run s = (m.resultOn s, s) :=
  Prod.ext rfl (h s)

theorem run_bind (m : Evaluation α) (f : α → Evaluation β) (s : CallStack) :
    (m >>= f).run.run s =
      match m.run.run s with
      | (.ok a, s) => (f a).run.run s
      | (.error e, s) => (.error e, s) := by
  change (ExceptT.bind m f).run.run s = _
  simp only [ExceptT.bind, ExceptT.run_mk, StateT.run_bind]
  rcases h : m.run.run s with ⟨r, s'⟩
  have hm : StateT.run m s = (r, s') := h
  simp only [hm]
  cases r <;> rfl

theorem balanced_pure (a : α) : Balanced (pure a : Evaluation α) := fun _ => rfl

theorem balanced_throw (e : EvalError) : Balanced (throw e : Evaluation α) := fun _ => rfl

theorem balanced_get : Balanced (get : Evaluation CallStack) := fun _ => rfl

theorem Balanced.bind {f : α → Evaluation β} (hm : Balanced m) (hf : ∀ a, Balanced (f a)) :
    Balanced (m >>= f) := by
  intro s
  rw [run_bind, hm.run_eq s]
  cases m.resultOn s with
  | error e => rfl
  | ok a => exact hf a s

@[simp] theorem resultOn_pure (a : α) (s : CallStack) : (pure a : Evaluation α).resultOn s = .ok a := rfl

@[simp] theorem resultOn_throw (e : EvalError) (s : CallStack) :
    (throw e : Evaluation α).resultOn s = .error e := rfl

/-- Both parts of a sequence see the stack that the sequence began with. -/
theorem Balanced.resultOn_bind (hm : Balanced m) (f : α → Evaluation β) (s : CallStack) :
    (m >>= f).resultOn s = (m.resultOn s).bind fun a => (f a).resultOn s := by
  rw [resultOn, run_bind, hm.run_eq s]
  cases m.resultOn s <;> rfl

/-- A frame is taken off again, as the body leaves it on top. -/
theorem balanced_inFrame (arguments : List Value) {body : Evaluation α} (h : Balanced body) :
    Balanced (inFrame arguments body) := by
  intro s
  change (body.run.run (s.push arguments)).2.pop = s
  rw [h, CallStack.pop_push]

theorem resultOn_inFrame (arguments : List Value) (body : Evaluation α) (s : CallStack) :
    (inFrame arguments body).resultOn s = body.resultOn (s.push arguments) := rfl

theorem balanced_refuseCall (function : String) : Balanced (refuseCall function : Evaluation α) :=
  balanced_get.bind fun _ => balanced_throw _

/-- Every value that the computation yields is of a kind. -/
def Yields (P : α → Prop) (m : Evaluation α) : Prop := ∀ s a, m.resultOn s = .ok a → P a

theorem yields_pure {P : α → Prop} {a : α} (h : P a) : Yields P (pure a) := by
  intro s b hb
  cases hb
  exact h

theorem yields_bind {P : β → Prop} {f : α → Evaluation β} (hf : ∀ a, Yields P (f a)) :
    Yields P (m >>= f) := by
  intro s b hb
  rw [resultOn, run_bind] at hb
  split at hb
  · exact hf _ _ _ hb
  · cases hb

end Evaluation

open Evaluation

namespace Expr

variable {scope : Scope} {call : String → List Value → Evaluation Value}

mutual

theorem evalWith_balanced (hcall : ∀ f args, Balanced (call f args)) :
    ∀ e : Expr, Balanced (e.evalWith scope call)
  | const _ => by unfold evalWith; exact balanced_pure _
  | property _ => by unfold evalWith; exact balanced_pure _
  | var _ => by unfold evalWith; exact balanced_pure _
  | aggregator _ => by unfold evalWith; exact balanced_pure _
  | argument _ => by
    unfold evalWith
    exact balanced_get.bind fun _ => balanced_pure _
  | .call _ arguments => by
    unfold evalWith
    exact (evalAll_balanced hcall arguments).bind fun _ => hcall _ _
  | choose condition yes no => by
    unfold evalWith
    refine (evalWith_balanced hcall condition).bind fun v => ?_
    split
    · exact evalWith_balanced hcall yes
    · exact evalWith_balanced hcall no
  | apply op operands => by
    unfold evalWith
    refine (evalAll_balanced hcall operands).bind fun vs => ?_
    split
    · exact balanced_pure _
    · exact balanced_throw _

theorem evalAll_balanced (hcall : ∀ f args, Balanced (call f args)) :
    ∀ es : List Expr, Balanced (evalAll scope call es)
  | [] => by unfold evalAll; exact balanced_pure _
  | e :: es => by
    unfold evalAll
    refine (evalWith_balanced hcall e).bind fun v => ?_
    exact (evalAll_balanced hcall es).bind fun _ => balanced_pure _

end

end Expr

/-- By induction on the room that is left, which is what the depth limit gives. -/
theorem Scope.callWith_balanced (scope : Scope) (room : Nat) (function : String)
    (arguments : List Value) : Balanced (scope.callWith room function arguments) := by
  induction room generalizing function arguments with
  | zero => exact balanced_refuseCall function
  | succ room ih =>
    apply balanced_inFrame
    split
    · exact Expr.evalWith_balanced ih _
    · exact balanced_pure _

theorem Expr.eval_balanced (scope : Scope) (e : Expr) : Balanced (e.eval scope) :=
  balanced_get.bind fun s => evalWith_balanced (scope.callWith_balanced s.room) e

namespace Expr

theorem run_eq (scope : Scope) (e : Expr) (s : CallStack) : e.run scope s = ((e.eval scope).resultOn s, s) :=
  (e.eval_balanced scope).run_eq s

/-- Evaluates expressions one after the other, each in a scope of its own. All share one stack, and one that
fails does not keep those behind it from being evaluated. -/
def runInTurn : List (Scope × Expr) → CallStack → List (Except EvalError Value) × CallStack
  | [], s => ([], s)
  | (scope, e) :: jobs, s =>
    let (result, s) := e.run scope s
    let (results, s) := runInTurn jobs s
    (result :: results, s)

theorem runInTurn_eq (jobs : List (Scope × Expr)) (s : CallStack) :
    runInTurn jobs s = (jobs.map fun job => (job.2.run job.1 s).1, s) := by
  induction jobs with
  | nil => rfl
  | cons job jobs ih =>
    obtain ⟨scope, e⟩ := job
    simp only [runInTurn, run_eq, ih, List.map_cons]

/-- Whatever an evaluation comes to, it leaves the stack as it was. So evaluations that share a stack have the
results that each has alone. -/
theorem leaves_stack (s : CallStack) :
    (∀ scope (e : Expr), (e.run scope s).2 = s) ∧
    ∀ jobs, runInTurn jobs s = (jobs.map fun job => (job.2.run job.1 s).1, s) :=
  ⟨fun scope e => e.eval_balanced scope s, fun jobs => runInTurn_eq jobs s⟩

end Expr

end EventFold
