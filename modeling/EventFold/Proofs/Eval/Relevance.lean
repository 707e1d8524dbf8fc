import EventFold.Proofs.Eval.Frames

/-!
# What an evaluation depends on

An evaluation comes to an expression, to its parts, and to the bodies of the functions that are called in what
it comes to. Of the aggregators of a scope only those matter that are referred to somewhere on that way, and the
functions matter only through the bodies that are found under their names.
-/

namespace EventFold

namespace Expr

mutual

/-- The expression and all its parts. The bodies of functions are no parts of their calls. -/
def nodes : Expr → List Expr
  | .call function arguments => .call function arguments :: nodesAll arguments
  | choose condition yes no => choose condition yes no :: (nodes condition ++ nodes yes ++ nodes no)
  | apply op operands => apply op operands :: nodesAll operands
  | e => [e]

def nodesAll : List Expr → List Expr
  | [] => []
  | e :: es => nodes e ++ nodesAll es

end

def aggregator? : Expr → Option String
  | aggregator name => some name
  | _ => none

def callee? : Expr → Option String
  | .call function _ => some function
  | _ => none

/-- The aggregators that are referred to in an expression, not counting the functions it calls. -/
def aggregators (e : Expr) : List String := e.nodes.filterMap aggregator?

def callees (e : Expr) : List String := e.nodes.filterMap callee?

/-- The expressions that an evaluation of some can come to. -/
inductive Involves (functions : Table Expr) (es : List Expr) : Expr → Prop where
  | self {e : Expr} : e ∈ es → Involves functions es e
  | body {e b : Expr} {function : String} : Involves functions es e → function ∈ e.callees →
    functions.get? function = some b → Involves functions es b

/-- Some expressions and the bodies of some functions. -/
def withBodies (functions : Table Expr) (names : List String) (es : List Expr) : List Expr :=
  es ++ names.filterMap functions.get?

/-- Expressions that call functions of some names only, as do the bodies of these, involve no others. -/
theorem Involves.mem_withBodies {functions : Table Expr} {names : List String} {es : List Expr} {e : Expr}
    (hclosed : ∀ e ∈ withBodies functions names es, ∀ function ∈ e.callees, function ∈ names)
    (h : Involves functions es e) : e ∈ withBodies functions names es := by
  induction h with
  | self hmem => exact List.mem_append_left _ hmem
  | body _ hcall hbody ih =>
    exact List.mem_append_right _ (List.mem_filterMap.mpr ⟨_, hclosed _ ih _ hcall, hbody⟩)

end Expr

open Evaluation

/-- Two scopes that differ at most in aggregators that are not in question. -/
structure Scope.Agree (a b : Scope) (relevant : String → Prop) : Prop where
  event : a.event = b.event
  vars : a.vars = b.vars
  functions : ∀ name, a.functions.get? name = b.functions.get? name
  aggregators : ∀ name, relevant name → a.aggregators.get? name = b.aggregators.get? name

namespace Expr

variable {a b : Scope} {f g : String → List Value → Evaluation Value}

/-- The scopes agree on what stands in some parts of expressions, and the calls there have the same effect. -/
def SameOn (a b : Scope) (f g : String → List Value → Evaluation Value) (parts : List Expr) : Prop :=
  ∀ e ∈ parts, (∀ name, e.aggregator? = some name → a.aggregators.get? name = b.aggregators.get? name) ∧
    ∀ name, e.callee? = some name → f name = g name

theorem SameOn.of_append {es ds : List Expr} (h : SameOn a b f g (es ++ ds)) :
    SameOn a b f g es ∧ SameOn a b f g ds :=
  List.forall_mem_append.mp h

theorem SameOn.of_cons {e : Expr} {es : List Expr} (h : SameOn a b f g (e :: es)) : SameOn a b f g es :=
  fun d hd => h d (List.mem_cons_of_mem e hd)

mutual

theorem evalWith_congr (hevent : a.event = b.event) (hvars : a.vars = b.vars) :
    ∀ e : Expr, SameOn a b f g e.nodes → e.evalWith a f = e.evalWith b g
  | const _, _ => by simp only [evalWith]
  | property _, _ => by simp only [evalWith, hevent]
  | var _, _ => by simp only [evalWith, hvars]
  | aggregator name, h => by
    unfold nodes at h
    have hsame := (h _ List.mem_cons_self).1 name rfl
    simp only [evalWith, hsame]
  | argument _, _ => by simp only [evalWith]
  | .call function arguments, h => by
    unfold nodes at h
    have hcall := (h _ List.mem_cons_self).2 function rfl
    simp only [evalWith, hcall, evalAll_congr hevent hvars arguments h.of_cons]
  | choose condition yes no, h => by
    unfold nodes at h
    obtain ⟨hfirst, hno⟩ := h.of_cons.of_append
    obtain ⟨hcondition, hyes⟩ := hfirst.of_append
    simp only [evalWith, evalWith_congr hevent hvars condition hcondition,
      evalWith_congr hevent hvars yes hyes, evalWith_congr hevent hvars no hno]
  | apply _ operands, h => by
    unfold nodes at h
    simp only [evalWith, evalAll_congr hevent hvars operands h.of_cons]

theorem evalAll_congr (hevent : a.event = b.event) (hvars : a.vars = b.vars) :
    ∀ es : List Expr, SameOn a b f g (nodesAll es) → evalAll a f es = evalAll b g es
  | [], _ => by simp only [evalAll]
  | e :: es, h => by
    unfold nodesAll at h
    obtain ⟨hfirst, hrest⟩ := h.of_append
    simp only [evalAll, evalWith_congr hevent hvars e hfirst, evalAll_congr hevent hvars es hrest]

end

end Expr

namespace Scope.Agree

open EventFold.Expr

variable {a b : Scope} {relevant : String → Prop} {es : List Expr} {e : Expr}

theorem sameOn (h : a.Agree b relevant) {f g : String → List Value → Evaluation Value}
    (hrefs : ∀ name ∈ e.aggregators, relevant name) (hcalls : ∀ name ∈ e.callees, f name = g name) :
    SameOn a b f g e.nodes := by
  intro part hpart
  constructor
  · intro name hname
    exact h.aggregators name (hrefs name (List.mem_filterMap.mpr ⟨part, hpart, hname⟩))
  · intro name hname
    exact hcalls name (List.mem_filterMap.mpr ⟨part, hpart, hname⟩)

/-- By induction on the room: with one frame less the calls in the body have the same effect. -/
theorem callWith_eq (h : a.Agree b relevant)
    (hrefs : ∀ e, Involves a.functions es e → ∀ name ∈ e.aggregators, relevant name) (room : Nat)
    {function : String} (he : Involves a.functions es e) (hcall : function ∈ e.callees) :
    a.callWith room function = b.callWith room function := by
  induction room generalizing e function with
  | zero => rfl
  | succ room ih =>
    funext arguments
    simp only [Scope.callWith, ← h.functions]
    cases hbody : a.functions.get? function with
    | none => rfl
    | some body =>
      have hinvolved := Involves.body he hcall hbody
      have hsame : SameOn a b (a.callWith room) (b.callWith room) body.nodes :=
        h.sameOn (hrefs body hinvolved) fun name hname => ih hinvolved hname
      simp only [evalWith_congr h.event h.vars body hsame]

/-- An evaluation is the same in two scopes that agree on all aggregators that it can come to. -/
theorem eval_eq (h : a.Agree b relevant)
    (hrefs : ∀ e, Involves a.functions es e → ∀ name ∈ e.aggregators, relevant name)
    (he : e ∈ es) : e.eval a = e.eval b := by
  have hsame : ∀ room, e.evalWith a (a.callWith room) = e.evalWith b (b.callWith room) := by
    intro room
    have hcalls : ∀ name ∈ e.callees, a.callWith room name = b.callWith room name :=
      fun name hname => h.callWith_eq hrefs room (.self he) hname
    exact evalWith_congr h.event h.vars e (h.sameOn (hrefs e (.self he)) hcalls)
  simp only [Expr.eval, hsame]

end Scope.Agree

/-- Two scopes of the same tables whose functions are found under the same names. -/
structure Scope.Same (a b : Scope) : Prop where
  event : a.event = b.event
  vars : a.vars = b.vars
  aggregators : a.aggregators = b.aggregators
  functions : ∀ name, a.functions.get? name = b.functions.get? name

theorem Scope.Same.eval_eq {a b : Scope} (h : a.Same b) (e : Expr) : e.eval a = e.eval b := by
  have hagree : a.Agree b fun _ => True := ⟨h.event, h.vars, h.functions, fun _ _ => by rw [h.aggregators]⟩
  have hmem : e ∈ [e] := List.mem_cons_self
  exact hagree.eval_eq (fun _ _ _ _ => trivial) hmem

end EventFold
