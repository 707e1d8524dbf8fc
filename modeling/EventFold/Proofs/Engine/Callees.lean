import EventFold.Proofs.Engine.Reapplying
import EventFold.Proofs.Eval.Related

/-!
# The functions that an engine may call

A call that is refused stands in the expression at hand or in the body of a function. So an engine never tells of
any other call, and the functions that it calls are those that stand in forms of the specifications it has read.
Events, replays and restored snapshots add none.
-/

namespace EventFold

open Evaluation

variable {called : String → Prop} {names : Vocabulary} {scope : Scope} {s : CallStack} {function name : String}
  {limit : Nat} {error : EvalError}

/-- A call that is refused is one of these. The first of the two results does not matter. -/
def RefusesOnly (called : String → Prop) (α : Type) (_ q : Except EvalError α) : Prop :=
  ∀ function limit, q = .error (.callDepthExceeded function limit) → called function

theorem compatible_refusesOnly (called : String → Prop) : Compatible (RefusesOnly called) where
  ok _ := nofun
  notANumber _ _ := nofun
  bind hfirst hrest := by
    intro function limit h
    rcases bind_eq_error_iff.mp h with hrefused | ⟨a, -, hrefused⟩
    · exact hfirst function limit hrefused
    · exact hrest a function limit hrefused

def Expr.CallsOnly (called : String → Prop) (e : Expr) : Prop := ∀ name ∈ e.callees, called name

def Scope.CallsOnly (called : String → Prop) (scope : Scope) : Prop :=
  ∀ name body, scope.functions.get? name = some body → body.CallsOnly called

/-- By induction on the room: without room the call itself is refused, and else one in the body may be. -/
theorem Scope.CallsOnly.callWith (h : scope.CallsOnly called) (room : Nat) (hname : called name) (s : CallStack) :
    Expr.CallsRelated (RefusesOnly called) scope room room s s name := by
  induction room generalizing name s with
  | zero =>
    rintro vs function limit ⟨⟩
    exact hname
  | succ room ih =>
    refine Expr.callWith_related (compatible_refusesOnly called) fun vs body hbody callee hcallee => ?_
    exact ih (h name body hbody callee hcallee) (s.push vs)

theorem Scope.CallsOnly.of_refused (h : scope.CallsOnly called) {e : Expr} (he : e.CallsOnly called)
    (hrefused : (e.eval scope).resultOn s = .error (.callDepthExceeded function limit)) : called function :=
  Expr.evalWith_related_of_frame (compatible_refusesOnly called) rfl e
    (fun name hname => h.callWith s.room (he name hname) s) function limit hrefused

namespace Aggregator

variable {a : Aggregator}

theorem selectMove_eq_error {condition value : Expr}
    (h : (selectMove scope condition value).resultOn s = .error error) :
    ∃ e ∈ [condition, value], (e.eval scope).resultOn s = .error error := by
  rw [selectMove, (condition.eval_balanced scope).resultOn_bind] at h
  rcases bind_eq_error_iff.mp h with hcondition | ⟨v, -, hrest⟩
  · exact ⟨condition, List.mem_cons_self, hcondition⟩
  · refine ⟨value, by simp, ?_⟩
    split at hrest
    · rw [(value.eval_balanced scope).resultOn_bind] at hrest
      rcases bind_eq_error_iff.mp hrest with hvalue | ⟨w, -, hdone⟩
      · exact hvalue
      · cases hdone
    · cases hrest

theorem funnelMove_eq_error {steps : List Expr} {taken : UInt64}
    (h : (funnelMove scope steps taken).resultOn s = .error error) :
    ∃ e ∈ steps, (e.eval scope).resultOn s = .error error := by
  unfold funnelMove at h
  split at h
  · cases h
  · rename_i step hstep
    rw [(step.eval_balanced scope).resultOn_bind] at h
    rcases bind_eq_error_iff.mp h with hvalue | ⟨v, -, hrest⟩
    · exact ⟨step, List.mem_of_getElem? hstep, hvalue⟩
    · split at hrest <;> cases hrest

theorem machineMove_eq_error {states : List Expr} {state : Number}
    (h : (machineMove scope states state).resultOn s = .error error) :
    ∃ e ∈ states, (e.eval scope).resultOn s = .error error := by
  unfold machineMove at h
  split at h
  · cases h
  · rename_i next hnext
    obtain ⟨index, -, hindex⟩ := Option.bind_eq_some_iff.mp hnext
    rw [(next.eval_balanced scope).resultOn_bind] at h
    rcases bind_eq_error_iff.mp h with hvalue | ⟨v, -, hrest⟩
    · exact ⟨next, List.mem_of_getElem? hindex, hvalue⟩
    · split at hrest <;> cases hrest

/-- A move fails on an expression of the rule. -/
theorem move_eq_error (h : (a.move scope).resultOn s = .error error) :
    ∃ e ∈ a.rule.exprs, (e.eval scope).resultOn s = .error error := by
  unfold move at h
  split at h
  · rename_i hrule
    rw [hrule]
    exact selectMove_eq_error h
  · rename_i hrule _
    rw [hrule]
    exact funnelMove_eq_error h
  · rename_i hrule _
    rw [hrule]
    exact machineMove_eq_error h
  · cases h

end Aggregator

def Rule.CallsOnly (called : String → Prop) (r : Rule) : Prop := ∀ e ∈ r.exprs, e.CallsOnly called

/-- A form of the specification that can be read has a call of the function. -/
def Specification.Calls (names : Vocabulary) (spec : Specification) (function : String) : Prop :=
  (∃ entry ∈ spec.functions.entries, ∃ body, entry.2.toExpr names = .ok body ∧ function ∈ body.callees) ∨
    ∃ entry ∈ spec.aggregators.entries, ∃ rule, entry.2.toRule names = .ok rule ∧
      ∃ e ∈ rule.exprs, function ∈ e.callees

/-- What a reconciliation registers was registered before or has been read from the entry of its name. -/
theorem Reconciliation.old_or_read_of_run_get? {registry : Table Aggregator} {entries : Table Form} {a : Aggregator}
    (ha : (run names registry entries).registry.get? name = some a) :
    registry.get? name = some a ∨ ∃ form, entries.get? name = some form ∧ form.toRule names = .ok a.rule := by
  rw [run_get?] at ha
  cases hform : entries.get? name with
  | none =>
    rw [hform] at ha
    cases ha
  | some form =>
    rw [hform, Option.map_some] at ha
    cases hv : verdict names registry (name, form) with
    | kept =>
      rw [hv] at ha
      exact .inl ha
    | read b =>
      rw [hv] at ha
      cases ha
      obtain ⟨rfl, hsound⟩ := Aggregator.isSound_of_ofForm (verdict_eq_read_iff.mp hv).2
      exact .inr ⟨a.source, rfl, hsound.rule_eq⟩
    | refused error =>
      rw [hv] at ha
      cases ha

namespace Engine

theorem mem_of_readFunctions {entries : List (String × Form)} {bodies : List (String × Expr)}
    (h : readFunctions names entries = .ok bodies) {body : Expr} (hbody : (name, body) ∈ bodies) :
    ∃ entry ∈ entries, entry.2.toExpr names = .ok body := by
  induction entries generalizing bodies with
  | nil =>
    cases h
    cases hbody
  | cons entry rest ih =>
    obtain ⟨first, hfirst, hrest⟩ := bind_eq_ok_iff.mp h
    obtain ⟨others, hothers, hall⟩ := bind_eq_ok_iff.mp hrest
    cases hall
    rcases List.mem_cons.mp hbody with heq | hmem
    · cases heq
      cases hentry : entry.2.toExpr names with
      | error e =>
        rw [hentry] at hfirst
        cases hfirst
      | ok e =>
        rw [hentry] at hfirst
        cases hfirst
        exact ⟨entry, List.mem_cons_self, hentry⟩
    · obtain ⟨e, he, hread⟩ := ih hothers hmem
      exact ⟨e, List.mem_cons_of_mem _ he, hread⟩

/-- All calls in the bodies of the functions and in the rules of the aggregators are of these functions. -/
structure CallsOnly (called : String → Prop) (e : Engine) : Prop where
  functions : ∀ name body, e.functions.get? name = some body → body.CallsOnly called
  aggregators : ∀ name a, e.aggregators.get? name = some a → a.rule.CallsOnly called

variable {d e : Engine} {spec : Specification} {event : Event} {f : Failure}

theorem callsOnly_new (called : String → Prop) (names : Vocabulary) (limit : Nat) :
    (Engine.new names limit).CallsOnly called where
  functions := nofun
  aggregators := nofun

theorem SameBasis.callsOnly (h : d.SameBasis e) (he : e.CallsOnly called) : d.CallsOnly called where
  functions := by
    rw [h.functions]
    exact he.functions
  aggregators := by
    intro name a ha
    obtain ⟨b, hb, hreset⟩ := exists_reset_eq h.fresh.symm ha
    have hrule : b.reset.rule = a.reset.rule := congrArg Aggregator.rule hreset
    change b.rule = a.rule at hrule
    rw [← hrule]
    exact he.aggregators name b hb

/-- An event fails on an expression of a registered aggregator. -/
theorem CallsOnly.of_track_eq_error (h : e.CallsOnly called) (herror : (e.track event).result = .error f) :
    ∃ error, f = .evaluation error ∧
      ∀ function limit, error = .callDepthExceeded function limit → called function := by
  obtain ⟨new, -, -, ⟨-, hok⟩ | ⟨name, a, error, ha, htransition, hresult⟩, -⟩ := e.track_slotwise event
  · rw [hok] at herror
    cases herror
  · rw [hresult] at herror
    cases herror
    refine ⟨error, rfl, ?_⟩
    rintro function limit rfl
    obtain ⟨expr, hexpr, hrefused⟩ := Aggregator.move_eq_error (map_eq_error_iff.mp htransition)
    have hrule := h.aggregators name a (Table.get?_of_getElem? ha)
    refine Scope.CallsOnly.of_refused ?_ (hrule expr hexpr) hrefused
    exact h.functions

theorem CallsOnly.aligned (h : e.CallsOnly called) (hspec : ∀ function, spec.Calls e.names function → called function)
    {bodies : List (String × Expr)} (hbodies : readFunctions e.names spec.functions.entries = .ok bodies) :
    (e.aligned spec (.ofList bodies)).CallsOnly called where
  functions := by
    intro name body hbody function hfunction
    obtain ⟨before, after, heq, -⟩ := Table.get?_ofList_eq_some_iff.mp hbody
    have hmem : (name, body) ∈ bodies := by
      rw [heq]
      exact List.mem_append_right before List.mem_cons_self
    obtain ⟨entry, hentry, hread⟩ := mem_of_readFunctions hbodies hmem
    exact hspec function (.inl ⟨entry, hentry, body, hread, hfunction⟩)
  aggregators := by
    intro name a ha
    rcases Reconciliation.old_or_read_of_run_get? ha with hold | ⟨form, hform, hrule⟩
    · exact h.aggregators name a hold
    · intro expr hexpr function hfunction
      have hentry := Table.get?_eq_some_iff.mp hform
      exact hspec function (.inr ⟨(name, form), hentry, a.rule, hrule, expr, hexpr, hfunction⟩)

theorem CallsOnly.update (h : e.CallsOnly called)
    (hspec : ∀ function, spec.Calls e.names function → called function) : (e.update spec).after.CallsOnly called := by
  cases hbodies : readFunctions e.names spec.functions.entries with
  | error f =>
    rw [(update_of_unread hbodies).2]
    exact h
  | ok bodies =>
    have haligned := h.aligned hspec hbodies
    cases hstale : e.isStale spec with
    | false =>
      rw [(update_of_not_stale hbodies hstale).2]
      exact haligned
    | true =>
      rw [(update_of_stale hbodies hstale).2]
      exact (replay_sameBasis _).callsOnly haligned

theorem names_update (e : Engine) (spec : Specification) : (e.update spec).after.names = e.names := by
  cases hbodies : readFunctions e.names spec.functions.entries with
  | error f => rw [(update_of_unread hbodies).2]
  | ok bodies =>
    cases hstale : e.isStale spec with
    | false =>
      rw [(update_of_not_stale hbodies hstale).2]
      rfl
    | true =>
      rw [(update_of_stale hbodies hstale).2]
      rfl

end Engine

end EventFold
