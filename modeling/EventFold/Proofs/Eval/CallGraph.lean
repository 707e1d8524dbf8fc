import EventFold.Proofs.Eval.Related
import EventFold.Proofs.Table
import Mathlib.Logic.Relation

/-!
# Functions that do not call themselves

One function calls another if a call of it stands anywhere in its body. Where no function calls itself, not even
through others, those whose bodies are evaluated inside one another are all different, so there are never more
of them than functions at all. A function that is not there takes a frame beyond these and goes no further.

The calls in the arguments of a call are over before it takes its own frame.
-/

namespace EventFold

/-- The body of one function has a call of another, or of itself, that is there. -/
def Scope.Calls (scope : Scope) (caller callee : String) : Prop :=
  ∃ body, scope.functions.get? caller = some body ∧ callee ∈ body.callees ∧
    scope.functions.contains callee = true

/-- Functions of which each is called in the body of the next. -/
inductive Scope.Trail (scope : Scope) : List String → Prop where
  | nil : Trail scope []
  | first {name : String} : scope.functions.contains name = true → Trail scope [name]
  | next {caller callee : String} {path : List String} :
    Trail scope (caller :: path) → scope.Calls caller callee → Trail scope (callee :: caller :: path)

/-- The second of two results is no refusal of a call. The first one does not matter. -/
def Admitted (α : Type) (_ q : Except EvalError α) : Prop := ¬ Exceeds q

theorem compatible_admitted : Compatible Admitted where
  ok _ := by
    rintro ⟨_, _, h⟩
    cases h
  notANumber _ _ := by
    rintro ⟨_, _, h⟩
    cases h
  bind hfirst hrest := by
    rintro ⟨function, limit, h⟩
    rcases bind_eq_error_iff.mp h with hrefused | ⟨a, -, hrefused⟩
    · exact hfirst ⟨function, limit, hrefused⟩
    · exact hrest a ⟨function, limit, hrefused⟩

open EventFold.Expr

namespace Scope

variable {scope : Scope} {name : String} {path : List String}

theorem Trail.contains (h : scope.Trail path) : ∀ name ∈ path, scope.functions.contains name = true := by
  induction h with
  | nil => exact List.forall_mem_nil _
  | first hname => exact List.forall_mem_singleton.mpr hname
  | next _ hcalls ih =>
    obtain ⟨_, _, _, hcallee⟩ := hcalls
    exact List.forall_mem_cons.mpr ⟨hcallee, ih⟩

theorem Trail.reaches (h : scope.Trail (name :: path)) :
    ∀ caller ∈ path, Relation.TransGen scope.Calls caller name := by
  generalize hwhole : name :: path = whole at h
  induction h generalizing name path with
  | nil => cases hwhole
  | first _ =>
    cases hwhole
    exact List.forall_mem_nil _
  | next _ hcalls ih =>
    cases hwhole
    refine List.forall_mem_cons.mpr ⟨.single hcalls, fun caller hcaller => ?_⟩
    exact (ih rfl caller hcaller).tail hcalls

section Acyclic

variable (hacyclic : ∀ name, ¬ Relation.TransGen scope.Calls name name)
include hacyclic

theorem Trail.nodup (h : scope.Trail path) : path.Nodup := by
  induction h with
  | nil => exact List.nodup_nil
  | first _ => exact List.pairwise_singleton _ _
  | @next _ callee _ htrail hcalls ih =>
    have hreaches := (htrail.next hcalls).reaches
    exact List.nodup_cons.mpr ⟨fun hmem => hacyclic callee (hreaches callee hmem), ih⟩

/-- There are no more functions on a trail than there are at all. -/
theorem Trail.length_le (h : scope.Trail path) : path.length ≤ scope.functions.size := by
  have hle := (h.nodup hacyclic).length_le_of_subset fun name hname =>
    Table.contains_iff.mp (h.contains name hname)
  rwa [Table.length_keys] at hle

/-- By induction on the room. As long as the trail is no longer than there are functions a call is let in, and
the calls in its body go on with a trail that is longer by one function. -/
theorem callWith_admitted (room : Nat) (hpath : scope.Trail path)
    (hnext : scope.functions.contains name = true → scope.Trail (name :: path))
    (hroom : scope.functions.size + 1 ≤ path.length + room) (s : CallStack) :
    CallsRelated Admitted scope room room s s name := by
  induction room generalizing path name s with
  | zero =>
    have hle := hpath.length_le hacyclic
    omega
  | succ room ih =>
    refine callWith_related compatible_admitted fun vs body hbody callee hcallee => ?_
    have htrail : scope.Trail (name :: path) := hnext (Option.isSome_of_eq_some hbody)
    have hlonger : scope.functions.size + 1 ≤ (name :: path).length + room := by
      rw [List.length_cons]
      omega
    exact ih htrail (fun hdefined => htrail.next ⟨body, hbody, hcallee, hdefined⟩) hlonger (s.push vs)

/-- On a stack with room for a frame more than there are functions no call is refused. -/
theorem run_admitted {s : CallStack} (hroom : scope.functions.size + 1 ≤ s.room) (e : Expr) :
    ¬ Exceeds (e.run scope s).1 := by
  have hlonger : scope.functions.size + 1 ≤ ([] : List String).length + s.room := by
    rwa [List.length_nil, Nat.zero_add]
  exact evalWith_related_of_frame compatible_admitted rfl e fun name _ =>
    callWith_admitted hacyclic s.room .nil .first hlonger s

end Acyclic

/-- Where no function calls itself, not even through others, a limit above the number of functions refuses no
call, however many calls there are and whatever is called. -/
theorem never_exceeds_of_acyclic (scope : Scope)
    (hacyclic : ∀ name, ¬ Relation.TransGen scope.Calls name name) (e : Expr) {limit : Nat}
    (hlimit : scope.functions.size + 1 ≤ limit) : ¬ Exceeds (e.run scope (.empty limit)).1 :=
  run_admitted hacyclic (s := .empty limit) hlimit e

/-- Functions that call only functions of a higher rank do not call themselves. -/
theorem acyclic_of_rank (rank : String → Nat)
    (hrank : ∀ p ∈ scope.functions.entries, ∀ callee ∈ p.2.callees,
      scope.functions.contains callee = true → rank p.1 < rank callee) (name : String) :
    ¬ Relation.TransGen scope.Calls name name := by
  have hstep : ∀ {caller callee : String}, scope.Calls caller callee → rank caller < rank callee := by
    rintro caller callee ⟨body, hbody, hcallee, hdefined⟩
    exact hrank (caller, body) (Table.get?_eq_some_iff.mp hbody) callee hcallee hdefined
  have hrises : ∀ {other}, Relation.TransGen scope.Calls name other → rank name < rank other := by
    intro other hreaches
    induction hreaches with
    | single hcalls => exact hstep hcalls
    | tail _ hcalls ih => exact Nat.lt_trans ih (hstep hcalls)
  exact fun hcycle => Nat.lt_irrefl _ (hrises hcycle)

/-- Calls in arguments, operands and branches of others, of functions that are there and of one that is not. -/
def layered : Scope :=
  ⟨none, ∅, ∅, .ofList [
    ("total", .apply .add [.call "pair" [.call "pair" [.argument 0]], .choose (.call "absent" []) (.const .null)
      (.call "pair" [.argument 0])]),
    ("pair", .choose (.call "absent" [.argument 0]) (.argument 1) (.argument 0))]⟩

def nested : Expr := .call "total" [.call "total" [.call "pair" [.const (.number 1)]]]

/-- The frame of the function that is not there is the third. -/
theorem never_exceeds_of_acyclic_layered :
    (∀ name, ¬ Relation.TransGen layered.Calls name name) ∧ layered.functions.size + 1 ≤ 3 ∧
    ¬ Exceeds (nested.run layered (.empty 3)).1 ∧
    (nested.run layered (.empty 3)).1 = .ok (.number 4) ∧
    (nested.run layered (.empty 2)).1 = .error (.callDepthExceeded "absent" 2) := by
  have hacyclic : ∀ name, ¬ Relation.TransGen layered.Calls name name :=
    acyclic_of_rank (fun name => if name = "pair" then 1 else 0) (by decide +kernel)
  have hsize : layered.functions.size + 1 ≤ 3 := by decide +kernel
  exact ⟨hacyclic, hsize, never_exceeds_of_acyclic layered hacyclic nested hsize, by decide +kernel,
    by decide +kernel⟩

end Scope

end EventFold
