import EventFold.Proofs.Eval.Related
import Mathlib.Order.Defs.Unbundled

/-!
# What an evaluation sees of the stack

The innermost frame holds what the arguments stand for, and the room decides which calls are refused. Frames
below the innermost one are never seen, and the limit itself only where a refused call reports it. A stack with
more room changes nothing but that calls are let in which were refused.

So the frame of a call matters through the values in it alone, which may as well stand in the body in place of
the arguments.
-/

namespace EventFold

/-- The failure as it is reported on a stack with another limit. -/
def EvalError.withLimit (limit : Nat) : EvalError → EvalError
  | notANumber op value => notANumber op value
  | callDepthExceeded function _ => callDepthExceeded function limit

/-- What an evaluation comes to on a second stack, with a limit: the same, as that stack reports it, unless the
first one had less room and a call was refused there. -/
def Follows (less : Prop) (limit : Nat) (α : Type) (r q : Except EvalError α) : Prop :=
  q = r.mapError (·.withLimit limit) ∨ less ∧ Exceeds r

theorem Follows.eq_mapError {less : Prop} {limit : Nat} {α : Type} {r q : Except EvalError α}
    (h : Follows less limit α r q) (hless : ¬ less) : q = r.mapError (·.withLimit limit) :=
  h.resolve_right fun hexceeds => hless hexceeds.1

theorem mapError_withLimit_of_not_exceeds {α : Type} {r : Except EvalError α} {limit : Nat} (h : ¬ Exceeds r) :
    r.mapError (·.withLimit limit) = r := by
  match r with
  | .ok _ => rfl
  | .error (.notANumber _ _) => rfl
  | .error (.callDepthExceeded function limit) => exact absurd ⟨function, limit, rfl⟩ h

theorem compatible_follows (less : Prop) (limit : Nat) : Compatible (Follows less limit) where
  ok _ := .inl rfl
  notANumber _ _ := .inl rfl
  bind {_ _ x _ _ _} hfirst hrest := by
    rcases hfirst with rfl | ⟨hless, function, refused, rfl⟩
    · cases x with
      | error _ => exact .inl rfl
      | ok a => exact hrest a
    · exact .inr ⟨hless, function, refused, rfl⟩

namespace Expr

variable {scope : Scope} {s t : CallStack}

/-- By induction on the room of the first stack. It runs out first, or on both stacks at once. -/
theorem callWith_follows {a b : Nat} (hroom : a ≤ b) (s t : CallStack) (name : String) :
    CallsRelated (Follows (a < b) t.limit) scope a b s t name := by
  induction a generalizing b s t name with
  | zero =>
    intro vs
    cases b with
    | zero => exact .inl rfl
    | succ b => exact .inr ⟨Nat.succ_pos b, name, s.limit, rfl⟩
  | succ a ih =>
    cases b with
    | zero => cases hroom
    | succ b =>
      rw [Nat.add_lt_add_iff_right]
      exact callWith_related (compatible_follows _ _) fun vs body _ callee _ =>
        ih (Nat.le_of_succ_le_succ hroom) (s.push vs) (t.push vs) callee

theorem run_follows (hframe : s.frames.head? = t.frames.head?) (hroom : s.room ≤ t.room) (e : Expr) :
    Follows (s.room < t.room) t.limit Value (e.run scope s).1 (e.run scope t).1 :=
  evalWith_related_of_frame (compatible_follows _ _) hframe e fun name _ => callWith_follows hroom s t name

/-- A refused call reports the limit of the stack. -/
theorem mapError_withLimit_run (e : Expr) (s : CallStack) :
    (e.run scope s).1.mapError (·.withLimit s.limit) = (e.run scope s).1 :=
  ((run_follows rfl (Nat.le_refl s.room) e).eq_mapError (Nat.lt_irrefl _)).symm

section Limit

/-- The limits under which no call of an evaluation on some frames is refused. -/
def sufficient (scope : Scope) (e : Expr) (frames : List (List Value)) : Set Nat :=
  {limit | ¬ Exceeds (e.run scope ⟨frames, limit⟩).1}

theorem mem_sufficient_iff {frames : List (List Value)} {e : Expr} {limit : Nat} :
    limit ∈ sufficient scope e frames ↔ ¬ Exceeds (e.run scope ⟨frames, limit⟩).1 := Iff.rfl

theorem run_eq_of_le {frames : List (List Value)} {e : Expr} {limit higher : Nat} (hle : limit ≤ higher)
    (h : ¬ Exceeds (e.run scope ⟨frames, limit⟩).1) :
    (e.run scope ⟨frames, higher⟩).1 = (e.run scope ⟨frames, limit⟩).1 := by
  have hroom : (CallStack.mk frames limit).room ≤ (CallStack.mk frames higher).room :=
    Nat.sub_le_sub_right hle frames.length
  have hframe : (CallStack.mk frames limit).frames.head? = (CallStack.mk frames higher).frames.head? := rfl
  rcases run_follows hframe hroom e with hsame | ⟨-, hexceeds⟩
  · rw [hsame, mapError_withLimit_of_not_exceeds h]
  · exact absurd hexceeds h

/-- A result that is no refusal of a call stays the same under every higher limit. So the limits that suffice
are all those from some point on, and they all give one result. -/
theorem limit_only_cuts (scope : Scope) (e : Expr) (frames : List (List Value)) :
    (∀ limit higher, limit ≤ higher → ¬ Exceeds (e.run scope ⟨frames, limit⟩).1 →
      (e.run scope ⟨frames, higher⟩).1 = (e.run scope ⟨frames, limit⟩).1) ∧
    IsUpperSet (sufficient scope e frames) ∧
    ∃ result, ∀ limit ∈ sufficient scope e frames, (e.run scope ⟨frames, limit⟩).1 = result := by
  refine ⟨fun limit higher hle h => run_eq_of_le hle h, ?_, ?_⟩
  · intro limit higher hle h
    rw [mem_sufficient_iff] at h ⊢
    rwa [run_eq_of_le hle h]
  · by_cases hsome : (sufficient scope e frames).Nonempty
    · obtain ⟨first, hfirst⟩ := hsome
      refine ⟨(e.run scope ⟨frames, first⟩).1, fun limit hlimit => ?_⟩
      rcases Nat.le_total first limit with hle | hle
      · exact run_eq_of_le hle hfirst
      · exact (run_eq_of_le hle hlimit).symm
    · exact ⟨.ok .null, fun limit hlimit => absurd ⟨limit, hlimit⟩ hsome⟩

/-- Goes on with the arguments behind the first one until that is false, and adds 1 to it then. -/
def advance : Expr :=
  .choose (.argument 0) (.call "next" [.argument 1, .argument 2]) (.apply .add [.argument 0, .const (.number 1)])

def advancing : Scope := ⟨none, ∅, ∅, .ofList [("next", advance)]⟩

def trues : List Value := [.bool true, .bool true, .bool true]

/-- The third call comes to an argument that is null. A limit that leaves no room for it hides this. -/
theorem limit_only_cuts_advancing :
    (advance.run advancing ⟨[trues], 3⟩).1 = .error (.callDepthExceeded "next" 3) ∧
    4 ∈ sufficient advancing advance [trues] ∧ 4 ≤ 2048 ∧
    (advance.run advancing ⟨[trues], 2048⟩).1 = .error (.notANumber .add .null) := by
  have hfour : (advance.run advancing ⟨[trues], 4⟩).1 = .error (.notANumber .add .null) := by
    decide +kernel
  have hsufficient : ¬ Exceeds (advance.run advancing ⟨[trues], 4⟩).1 := by
    rw [hfour]
    rintro ⟨_, _, h⟩
    cases h
  have hle : 4 ≤ 2048 := by decide
  have hhigher := (limit_only_cuts advancing advance [trues]).1 4 2048 hle hsufficient
  exact ⟨by decide +kernel, hsufficient, hle, hhigher.trans hfour⟩

end Limit

section InnermostFrame

/-- On two stacks with the same innermost frame, or none, and as much room an evaluation comes to the same. Only
the limit that a refused call reports is that of the stack at hand. -/
theorem innermost_frame_decides (hframe : s.frames.head? = t.frames.head?)
    (hroom : s.limit - s.depth = t.limit - t.depth) (e : Expr) :
    (e.run scope t).1 = (e.run scope s).1.mapError (·.withLimit t.limit) := by
  have hle : s.room ≤ t.room := Nat.le_of_eq hroom
  have hnot : ¬ s.room < t.room := Nat.not_lt_of_ge (Nat.le_of_eq hroom.symm)
  exact (run_follows hframe hle e).eq_mapError hnot

/-- With room for two calls the third is refused, below whatever frames. -/
theorem innermost_frame_decides_advancing :
    [trues].head? = [trues, [.null, .text "below"]].head? ∧ 3 - 1 = 4 - 2 ∧
    (advance.run advancing ⟨[trues], 3⟩).1 = .error (.callDepthExceeded "next" 3) ∧
    (advance.run advancing ⟨[trues, [.null, .text "below"]], 4⟩).1 =
      .error (.callDepthExceeded "next" 4) := by
  have hresult : (advance.run advancing ⟨[trues], 3⟩).1 = .error (.callDepthExceeded "next" 3) := by
    decide +kernel
  have hsame := @innermost_frame_decides advancing ⟨[trues], 3⟩ ⟨[trues, [.null, .text "below"]], 4⟩
    rfl rfl advance
  rw [hresult] at hsame
  exact ⟨rfl, rfl, hresult, hsame⟩

end InnermostFrame

section Calls

/-- The expression with values in place of its arguments, and null for those that are not there. -/
def withArguments (vs : List Value) (e : Expr) : Expr := e.instantiate fun i => const ((vs[i]?).getD .null)

theorem resultsOn_eq_ok {es : List Expr} {vs : List Value}
    (h : (es.map fun e => (e.run scope s).1) = vs.map .ok) : resultsOn scope es s = .ok vs := by
  induction es generalizing vs with
  | nil =>
    obtain rfl := List.map_eq_nil_iff.mp h.symm
    exact resultsOn_nil s
  | cons e es ih =>
    obtain ⟨v, vs, rfl, hfirst, hrest⟩ := List.map_eq_cons_iff.mp h.symm
    have hresult : (e.eval scope).resultOn s = .ok v := hfirst.symm
    rw [resultsOn_cons, hresult, ih hrest.symm]
    rfl

/-- A call that is let in comes to what the body comes to on the stack with a frame more. -/
theorem run_call {function : String} {body : Expr} {arguments : List Expr} {vs : List Value}
    (hroom : s.depth < s.limit) (hbody : scope.functions.get? function = some body)
    (harguments : resultsOn scope arguments s = .ok vs) :
    ((Expr.call function arguments).run scope s).1 = (body.run scope (s.push vs)).1 := by
  have henter : s.enter function vs = .ok (s.push vs) := CallStack.enter_eq_ok_iff.mpr ⟨hroom, rfl⟩
  rw [run_eq, run_eq, resultOn_call, harguments]
  simp only [Except.bind, henter, hbody]

/-- The contents of the innermost frame do not matter to a body with values in place of its arguments. -/
theorem run_withArguments (body : Expr) (vs frame : List Value) :
    ((body.withArguments vs).run scope (s.push frame)).1 = (body.run scope (s.push vs)).1 := by
  have hroom : (s.push vs).room ≤ (s.push frame).room := Nat.le_refl _
  have hfollows : Follows ((s.push vs).room < (s.push frame).room) s.limit Value
      (body.run scope (s.push vs)).1 ((body.withArguments vs).run scope (s.push frame)).1 :=
    evalWith_related (compatible_follows _ _) (fun _ => .inl rfl) body fun name _ =>
      callWith_follows hroom (s.push vs) (s.push frame) name
  have hreplaced := hfollows.eq_mapError (Nat.lt_irrefl _)
  exact hreplaced.trans (mapError_withLimit_run body (s.push vs))

/-- A call whose arguments have values comes to what the body of the function comes to with these values in
place of its arguments, in a frame of whatever contents. -/
theorem call_eq_withArguments {function : String} {body : Expr} {arguments : List Expr} {vs : List Value}
    (hroom : s.depth < s.limit) (hbody : scope.functions.get? function = some body)
    (harguments : (arguments.map fun e => (e.run scope s).1) = vs.map .ok) (frame : List Value) :
    ((Expr.call function arguments).run scope s).1 =
      ((body.withArguments vs).run scope (s.push frame)).1 := by
  rw [run_call hroom hbody (resultsOn_eq_ok harguments), run_withArguments]

/-- The body of `next` called on true and 0. -/
def advanced : Expr :=
  .choose (.const (.bool true)) (.call "next" [.const (.number 0), .const .null])
    (.apply .add [.const (.bool true), .const (.number 1)])

/-- The first argument of the call is read in the frame of the caller, those of the body are in place already. -/
theorem call_eq_withArguments_advancing :
    (CallStack.mk [trues] 3).depth < 3 ∧ advancing.functions.get? "next" = some advance ∧
    ([argument 0, .const (.number 0)].map fun e => (e.run advancing ⟨[trues], 3⟩).1) =
      [.ok (.bool true), .ok (.number 0)] ∧
    advance.withArguments [.bool true, .number 0] = advanced ∧
    ((Expr.call "next" [.argument 0, .const (.number 0)]).run advancing ⟨[trues], 3⟩).1 = .ok (.number 1) ∧
    (advanced.run advancing ⟨[[.text "other"], trues], 3⟩).1 = .ok (.number 1) := by
  have hadvanced : advance.withArguments [.bool true, .number 0] = advanced := rfl
  have hresult : ((Expr.call "next" [.argument 0, .const (.number 0)]).run advancing ⟨[trues], 3⟩).1 =
      .ok (.number 1) := by decide +kernel
  have hsame := @call_eq_withArguments advancing ⟨[trues], 3⟩ "next" advance
    [.argument 0, .const (.number 0)] [.bool true, .number 0] (by decide) rfl rfl [.text "other"]
  rw [hresult, hadvanced] at hsame
  exact ⟨by decide, rfl, rfl, hadvanced, hresult, hsame.symm⟩

end Calls

end Expr

end EventFold
