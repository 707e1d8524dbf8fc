import EventFold.Proofs.Aggregator.Alone
import EventFold.Proofs.Number.Whole

/-!
# Machines

The state of a machine may be any number, but only one that is an index of the states has an expression. In such
a state the expression decides where an event takes the machine. In any other state, be it a fraction, NaN or
too large, the machine stays for ever.
-/

namespace EventFold.Aggregator

variable {a : Aggregator} {states : List Expr} {x : Number} {i : Nat} {next : Expr} {scope : Scope}
  {s : CallStack}

theorem stateExpr?_eq_some_iff :
    stateExpr? states x = some next ↔ ∃ i : ℕ, x.rational? = some (i : ℚ) ∧ states[i]? = some next := by
  rw [stateExpr?, Option.bind_eq_some_iff]
  exact exists_congr fun i => and_congr_left fun _ => Number.natural?_eq_some_iff

theorem stateExpr?_eq_none_iff :
    stateExpr? states x = none ↔ ∀ i < states.length, x.rational? ≠ some (i : ℚ) := by
  constructor
  · intro h i hi hx
    have hsome := stateExpr?_eq_some_iff.mpr ⟨i, hx, List.getElem?_eq_getElem hi⟩
    rw [h] at hsome
    cases hsome
  · intro h
    cases hnext : stateExpr? states x with
    | none => rfl
    | some next =>
      obtain ⟨i, hx, hi⟩ := stateExpr?_eq_some_iff.mp hnext
      exact absurd hx (h i (List.getElem?_eq_some_iff.mp hi).1)

/-- The index of a state may be found by comparisons of its number. The states then hold it. -/
theorem stateExpr?_eq_indexBelow? (hlen : states.length ≤ 2 ^ 53) :
    stateExpr? states x = (x.indexBelow? states.length).bind (states[·]?) := by
  apply Option.ext
  intro next
  rw [stateExpr?_eq_some_iff, Option.bind_eq_some_iff]
  refine exists_congr fun i => and_congr_left fun hi => ?_
  rw [Number.indexBelow?_eq_some_iff hlen, and_iff_left (List.getElem?_eq_some_iff.mp hi).1]

section Event

variable (hrule : a.rule = .stateMachine states) (hstate : a.state = .standing x)
include hrule hstate

theorem move_machine (scope : Scope) : a.move scope = machineMove scope states x := by
  unfold move
  rw [hrule, hstate]

/-- A state with an expression is left for the number that the expression yields. -/
theorem process_of_stateExpr? (hnext : stateExpr? states x = some next) (scope : Scope) (s : CallStack) :
    (∀ y, (next.run scope s).1 = .ok (.number y) →
      a.process scope s = ⟨({ a with state := .standing y }, s), .ok (), #[]⟩) ∧
    (∀ v, (next.run scope s).1 = .ok v → v.number? = none →
      a.process scope s = ⟨(a, s), .ok (), #[.refusedMove a.name x v]⟩) ∧
    ∀ e, (next.run scope s).1 = .error e → a.process scope s = ⟨(a, s), .error (.evaluation e), #[]⟩ := by
  have hmove : (a.move scope).resultOn s = (next.run scope s).1.map fun v =>
      v.number?.elim (.refused x v) fun y => .enter (.standing y) := by
    rw [move_machine hrule hstate, machineMove, hnext, Expr.run_eq]
    refine ((next.eval_balanced scope).resultOn_bind _ s).trans ?_
    cases (next.eval scope).resultOn s with
    | error e => rfl
    | ok v => cases v <;> rfl
  refine ⟨fun y hy => ?_, fun v hv hnumber => ?_, fun e he => ?_⟩
  · rw [hy] at hmove
    exact process_of_ok hmove
  · simp only [hv, Except.map, hnumber, Option.elim_none] at hmove
    exact process_of_ok hmove
  · rw [he] at hmove
    exact process_of_error hmove

/-- A state without an expression is never left. -/
theorem processAll_of_no_stateExpr? (hnone : stateExpr? states x = none) (scopes : List Scope) (s : CallStack) :
    a.processAll s scopes = ⟨(a, s), .ok (), #[]⟩ := by
  apply processAll_of_fixed
  intro scope
  have hmove : (a.move scope).resultOn s = .ok .stay := by
    rw [move_machine hrule hstate, machineMove, hnone]
    rfl
  exact process_of_ok hmove

/-- An event is decided by the expression of the state if the number of the state is an index of the states, as
the comparisons find it. In every other state the machine stays as it is, whatever the events. -/
theorem machine_moves_at_index (hlen : states.length ≤ 2 ^ 53) :
    (∀ i, x.indexBelow? states.length = some i ↔ x.rational? = some (i : ℚ) ∧ i < states.length) ∧
    stateExpr? states x = (x.indexBelow? states.length).bind (states[·]?) ∧
    (∀ (i : ℕ) next, x.rational? = some (i : ℚ) → states[i]? = some next → ∀ scope s,
      (∀ y, (next.run scope s).1 = .ok (.number y) →
        a.process scope s = ⟨({ a with state := .standing y }, s), .ok (), #[]⟩) ∧
      (∀ v, (next.run scope s).1 = .ok v → v.number? = none →
        a.process scope s = ⟨(a, s), .ok (), #[.refusedMove a.name x v]⟩) ∧
      ∀ e, (next.run scope s).1 = .error e → a.process scope s = ⟨(a, s), .error (.evaluation e), #[]⟩) ∧
    ((∀ i < states.length, x.rational? ≠ some (i : ℚ)) →
      ∀ scopes s, a.processAll s scopes = ⟨(a, s), .ok (), #[]⟩) := by
  refine ⟨fun i => Number.indexBelow?_eq_some_iff hlen, stateExpr?_eq_indexBelow? hlen, ?_, ?_⟩
  · intro i next hx hi
    exact process_of_stateExpr? hrule hstate (stateExpr?_eq_some_iff.mpr ⟨i, hx, hi⟩)
  · intro hnone
    exact processAll_of_no_stateExpr? hrule hstate (stateExpr?_eq_none_iff.mpr hnone)

end Event

/-- A machine of two states that is set to any number. -/
def twoStates (x : Number) : Aggregator :=
  (Aggregator.new "m" (.list []) (.stateMachine [.property "next", .const (.number 0)])).restore (.standing x)

/-- The negative zero is the first state. From there an event takes the machine to a half, for ever. -/
theorem machine_moves_at_index_twoStates :
    (twoStates (-0)).process ⟨some (Event.empty.set "next" (.number 0.5)), ∅, ∅, ∅⟩ (.empty 1) =
      ⟨(twoStates 0.5, .empty 1), .ok (), #[]⟩ ∧
    ∀ scopes s, (twoStates 0.5).processAll s scopes = ⟨(twoStates 0.5, s), .ok (), #[]⟩ := by
  have hlen : [Expr.property "next", .const (.number 0)].length ≤ 2 ^ 53 := by decide
  have hfirst : Number.rational? (-0) = some ((0 : ℕ) : ℚ) := Number.natural?_eq_some_iff.mp (by decide +kernel)
  have hnone : ∀ i < [Expr.property "next", .const (.number 0)].length, Number.rational? 0.5 ≠ some (i : ℚ) := by
    intro i _ hi
    have hhalf : Number.natural? 0.5 = none := by decide +kernel
    rw [Number.natural?_eq_some_iff.mpr hi] at hhalf
    cases hhalf
  have hmoves := (machine_moves_at_index (a := twoStates (-0)) rfl rfl hlen).2.2.1 0 _ hfirst rfl
  have hstays := (machine_moves_at_index (a := twoStates 0.5) rfl rfl hlen).2.2.2 hnone
  exact ⟨(hmoves _ _).1 _ rfl, hstays⟩

end EventFold.Aggregator
