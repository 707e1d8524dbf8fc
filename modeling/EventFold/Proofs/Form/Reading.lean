import EventFold.Aggregator.Rule
import EventFold.Proofs.Results

/-!
# How lists are read

A list is read in two steps: its head says what it is to be, then its elements are read from left to right.
-/

namespace EventFold

namespace Form

/-- The expression of a head and the expressions behind it. A choice has three. -/
def Head.expr : Head → List Expr → Expr
  | .call f, es => .call f es
  | .apply op, es => .apply op es
  | .choose, [c, y, n] => .choose c y n
  | .choose, _ => .const .null

variable {names : Vocabulary} {head : Form} {rest : List Form} {count : Nat}

theorem eq_three_of_readHead (h : readHead head count = .ok .choose) : count = 3 := by
  unfold readHead at h
  split at h
  · split at h
    · split at h <;> cases h
    · split at h
      · split at h
        · rename_i hc
          exact eq_of_beq hc
        · cases h
      · split at h
        · split at h <;> cases h
        · cases h
  · cases h

theorem toExpr_cons (names : Vocabulary) (head : Form) (rest : List Form) :
    toExpr names (list (head :: rest)) =
      (readHead head rest.length).bind fun what => (toExprs names rest).map what.expr := by
  cases hr : readHead head rest.length with
  | error e =>
    unfold toExpr
    rw [hr]
    rfl
  | ok what =>
    cases what with
    | call f =>
      unfold toExpr
      rw [hr]
      rfl
    | apply op =>
      unfold toExpr
      rw [hr]
      rfl
    | choose =>
      have hlen := eq_three_of_readHead hr
      match rest with
      | [c, y, n] =>
        unfold toExpr
        rw [hr]
        simp only [toExprs]
        cases toExpr names c <;> cases toExpr names y <;> cases toExpr names n <;> rfl

theorem toExprs_cons (names : Vocabulary) (f : Form) (fs : List Form) :
    toExprs names (f :: fs) =
      (toExpr names f).bind fun e => (toExprs names fs).map (e :: ·) := by
  rw [toExprs]
  rfl

theorem toExpr_cons_eq_ok_iff {e : Expr} : toExpr names (list (head :: rest)) = .ok e ↔
    ∃ what, readHead head rest.length = .ok what ∧
      ∃ es, toExprs names rest = .ok es ∧ what.expr es = e := by
  simp only [toExpr_cons, bind_eq_ok_iff, map_eq_ok_iff]

theorem toExprs_cons_eq_ok_iff {f : Form} {fs : List Form} {es : List Expr} :
    toExprs names (f :: fs) = .ok es ↔
      ∃ e, toExpr names f = .ok e ∧ ∃ tail, toExprs names fs = .ok tail ∧ e :: tail = es := by
  simp only [toExprs_cons, bind_eq_ok_iff, map_eq_ok_iff]

theorem length_of_toExprs : ∀ {fs : List Form} {es : List Expr},
    toExprs names fs = .ok es → es.length = fs.length
  | [], _, h => by
    cases h
    rfl
  | _ :: _, _, h => by
    obtain ⟨_, _, tail, htail, rfl⟩ := toExprs_cons_eq_ok_iff.mp h
    rw [List.length_cons, List.length_cons, length_of_toExprs htail]

/-- A rule is read from the forms behind its tag if they are its expressions. There is at least one, and
the kind that selects has two in any case. -/
theorem readRule_eq_ok_iff {kind : AggregatorKind} {rule : Rule} :
    readRule names kind rest = .ok rule ↔
      rest ≠ [] ∧ rule.kind = kind ∧ toExprs names rest = .ok rule.exprs := by
  cases kind with
  | selectIf =>
    constructor
    · intro h
      match rest with
      | [c, v] =>
        change (toExpr names c).bind (fun c => (toExpr names v).bind fun v =>
          .ok (Rule.selectIf c v)) = _ at h
        obtain ⟨c', hc, h⟩ := bind_eq_ok_iff.mp h
        obtain ⟨v', hv, h⟩ := bind_eq_ok_iff.mp h
        cases h
        refine ⟨List.cons_ne_nil _ _, rfl, ?_⟩
        exact toExprs_cons_eq_ok_iff.mpr ⟨c', hc, _, toExprs_cons_eq_ok_iff.mpr ⟨v', hv, _, rfl, rfl⟩, rfl⟩
    · rintro ⟨-, hkind, h⟩
      cases rule with
      | selectIf c' v' =>
        have hlen := length_of_toExprs h
        match rest with
        | [c, v] =>
          obtain ⟨c', hc, tail, htail, hes⟩ := toExprs_cons_eq_ok_iff.mp h
          obtain ⟨v', hv, last, hlast, rfl⟩ := toExprs_cons_eq_ok_iff.mp htail
          cases hes
          exact bind_eq_ok_iff.mpr ⟨_, hc, bind_eq_ok_iff.mpr ⟨_, hv, rfl⟩⟩
      | funnel _ => cases hkind
      | stateMachine _ => cases hkind
  | funnel =>
    cases rest with
    | nil => simp [readRule]
    | cons f fs =>
      rw [readRule, map_eq_ok_iff]
      cases rule <;> simp [Rule.kind, Rule.exprs]
      all_goals simp
  | stateMachine =>
    cases rest with
    | nil => simp [readRule]
    | cons f fs =>
      rw [readRule, map_eq_ok_iff]
      cases rule <;> simp [Rule.kind, Rule.exprs]
      all_goals simp

theorem kind_of_tag? {tag : String} {kind : AggregatorKind} (h : AggregatorKind.ofTag? tag = some kind) :
    kind.tag = tag := by
  unfold AggregatorKind.ofTag? at h
  have hfound := List.find?_some h
  exact eq_of_beq hfound

theorem toRule_eq_ok_iff {f : Form} {rule : Rule} : f.toRule names = .ok rule ↔
    ∃ rest, f = list (atom (.text rule.kind.tag) :: rest) ∧ rest ≠ [] ∧
      toExprs names rest = .ok rule.exprs := by
  constructor
  · intro h
    unfold toRule at h
    split at h
    · cases h
    · rename_i tag rest
      split at h
      · rename_i kind hkind
        obtain ⟨hne, rfl, hes⟩ := readRule_eq_ok_iff.mp h
        exact ⟨rest, by rw [kind_of_tag? hkind], hne, hes⟩
      · cases h
    · cases h
    · cases h
  · rintro ⟨rest, rfl, hne, hes⟩
    rw [toRule, AggregatorKind.ofTag?_tag]
    exact readRule_eq_ok_iff.mpr ⟨hne, rfl, hes⟩

end Form

end EventFold
