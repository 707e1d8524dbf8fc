import EventFold.Proofs.Engine.Folding
import EventFold.Proofs.Engine.Reachable
import EventFold.Proofs.Form.Reading

/-!
# What the last slot has seen

When the turn of the last slot comes, every other slot is in its new state already. So the last slot sees the
registry as the event leaves it, except for its own state. An expression that does not refer to that slot, not
even in the functions that it comes to call, has the same value there and when it is evaluated afterwards.

A selection that selects always holds that value.
-/

namespace EventFold

open EventFold.Expr (Involves)

variable {names : Vocabulary} {form : Form} {scope : Scope} {s : CallStack} {expr : Expr}

/-- The rule of a selection without a condition. -/
theorem Form.toRule_always (names : Vocabulary) (form : Form) :
    (Form.list [.atom (.text "select_if"), .atom (.bool true), form]).toRule names =
      (form.toExpr names).map (.selectIf (.const (.bool true))) := by
  have htag : AggregatorKind.ofTag? "select_if" = some .selectIf := AggregatorKind.ofTag?_tag .selectIf
  simp only [toRule, htag, readRule, toExpr]
  cases form.toExpr names <;> rfl

theorem Aggregator.resultOn_selectMove_always (expr : Expr) (s : CallStack) :
    (selectMove scope (.const (.bool true)) expr).resultOn s =
      ((expr.eval scope).resultOn s).map fun v => .enter (.selected v) := by
  have hcondition : (Expr.eval scope (.const (.bool true))).resultOn s = .ok (.bool true) := rfl
  have hvalue := (expr.eval_balanced scope).resultOn_bind (fun v => pure (Move.enter (.selected v))) s
  rw [selectMove, ((Expr.const _).eval_balanced scope).resultOn_bind, hcondition]
  refine hvalue.trans ?_
  cases (expr.eval scope).resultOn s <;> rfl

namespace Engine

variable {e : Engine} {event : Event} {registry : Table Aggregator} {new : List State} {name other : String}
  {a : Aggregator} {i : Nat}

/-- Before its last slot a registry shows what it does afterwards, apart from that slot. -/
theorem get?_values_before_last (ha : registry.entries[i]? = some (name, a)) (hlast : registry.size = i + 1)
    (hall : new.length = registry.size) (hother : other ≠ name) :
    (Aggregator.values (registry.withStates (new.take i))).get? other =
      (Aggregator.values (registry.withStates new)).get? other := by
  cases hget : registry.get? other with
  | none =>
    have hnot : other ∉ registry.keys := by rw [← Table.get?_isSome_iff, hget]; simp
    have hnone : ∀ new, (Aggregator.values (registry.withStates new)).get? other = none := by
      intro new
      rw [← Option.not_isSome_iff_eq_none, Table.get?_isSome_iff, Aggregator.values, Table.keys_map,
        Table.keys_withStates]
      exact hnot
    rw [hnone, hnone]
  | some b =>
    obtain ⟨j, hj⟩ := List.mem_iff_getElem?.mp (Table.get?_eq_some_iff.mp hget)
    have hlt : j < registry.size := (List.getElem?_eq_some_iff.mp hj).1
    have hne : j ≠ i := by
      rintro rfl
      exact hother (Prod.mk.inj (Option.some.inj (hj.symm.trans ha))).1
    have hslot : ∀ k, (Aggregator.values (registry.withStates (new.take k))).get? other =
        some (if j < k then new[j]?.getD b.state else b.state).value := Table.get?_values_withStates hj
    have hafter := hslot new.length
    rw [List.take_length] at hafter
    rw [hslot i, hafter, if_pos (by omega), if_pos (by omega)]

/-- The last slot sees what is seen after the event, if its expressions do not refer to it. -/
theorem agree_before_last (ha : registry.entries[i]? = some (name, a)) (hlast : registry.size = i + 1)
    (hall : new.length = registry.size) :
    Scope.Agree ⟨some event, e.vars, Aggregator.values (registry.withStates (new.take i)), e.functions⟩
      ⟨some event, e.vars, Aggregator.values (registry.withStates new), e.functions⟩ (· ≠ name) :=
  ⟨rfl, rfl, fun _ => rfl, fun _ hother => get?_values_before_last ha hlast hall hother⟩

/-- What a selection without a condition goes to is what its expression evaluates to. -/
theorem transition_always (hrule : a.rule = .selectIf (.const (.bool true)) expr) :
    e.transition event registry a =
      ((expr.eval ⟨some event, e.vars, Aggregator.values registry, e.functions⟩).resultOn (.empty e.limit)).map
        .selected := by
  unfold transition Aggregator.move
  rw [hrule, Aggregator.resultOn_selectMove_always]
  cases (expr.eval ⟨some event, e.vars, Aggregator.values registry, e.functions⟩).resultOn (.empty e.limit) <;>
    rfl

theorem evaluate_eq (hexpr : form.toExpr e.names = .ok expr) : e.evaluate form =
    ((expr.eval (e.scope e.events.back?)).resultOn (.empty e.limit)).mapError .evaluation := by
  simp only [evaluate, hexpr]
  rfl

theorem scope_after_track (hafter : (e.track event).after.aggregators = registry) :
    (e.track event).after.scope (e.track event).after.events.back? =
      ⟨some event, e.vars, Aggregator.values registry, e.functions⟩ := by
  have hback : (e.track event).after.events.back? = some event := Array.back?_push
  rw [scope, hback, hafter]
  rfl

theorem exists_last_slot (h : registry.entries.getLast? = some (name, a)) :
    ∃ i, registry.size = i + 1 ∧ registry.entries[i]? = some (name, a) := by
  rw [List.getLast?_eq_getElem?] at h
  have hlt := (List.getElem?_eq_some_iff.mp h).1
  exact ⟨_, by unfold Table.size; omega, h⟩

theorem Reachable.exists_rule_always (h : Reachable e) (ha : e.aggregators.get? name = some a)
    (hsource : a.source = .list [.atom (.text "select_if"), .atom (.bool true), form]) :
    ∃ expr, form.toExpr e.names = .ok expr ∧ a.rule = .selectIf (.const (.bool true)) expr := by
  have hread := (h.sound name a ha).rule_eq
  rw [hsource, Form.toRule_always] at hread
  obtain ⟨expr, hexpr, hrule⟩ := map_eq_ok_iff.mp hread
  exact ⟨expr, hexpr, hrule.symm⟩

/-- A form that is evaluated after an event has the value that a selection of it shows, if the selection is the
last aggregator and selects always, and the form does not come to refer to it. -/
theorem Reachable.evaluate_after (h : Reachable e)
    (hlast : e.aggregators.entries.getLast? = some (name, a))
    (hsource : a.source = .list [.atom (.text "select_if"), .atom (.bool true), form])
    (hapart : ∀ expr, form.toExpr e.names = .ok expr →
      ∀ part, Involves e.functions [expr] part → name ∉ part.aggregators)
    (event : Event) (hok : (e.track event).result = .ok ()) :
    ∃ v, (e.track event).after.evaluate form = .ok v ∧ (e.track event).after.values.get? name = some v := by
  obtain ⟨i, hsize, ha⟩ := exists_last_slot hlast
  obtain ⟨expr, hexpr, hrule⟩ := h.exists_rule_always (Table.get?_of_getElem? ha) hsource
  -- The states after the event are those that the slots move to in turn, the selection after all others.
  obtain ⟨new, hall, htaken, hafter⟩ := passes_of_track hok
  have hi : new[i]? = some new[i] := List.getElem?_eq_getElem (by omega)
  obtain ⟨n, b, hb, hmoves⟩ := htaken i new[i] hi
  obtain ⟨rfl, rfl⟩ := Prod.mk.inj (Option.some.inj (ha.symm.trans hb))
  rw [transition_always hrule] at hmoves
  obtain ⟨v, hv, hstate⟩ := map_eq_ok_iff.mp hmoves
  have hagree : Scope.Agree
      ⟨some event, e.vars, Aggregator.values (e.aggregators.withStates (new.take i)), e.functions⟩
      ⟨some event, e.vars, Aggregator.values (e.aggregators.withStates new), e.functions⟩ (· ≠ name) :=
    agree_before_last ha hsize hall
  have hunread : ∀ part, Involves e.functions [expr] part → ∀ other ∈ part.aggregators, other ≠ name :=
    fun part hpart other hother heq => hapart expr hexpr part hpart (heq ▸ hother)
  have hsame := hagree.eval_eq hunread List.mem_cons_self
  refine ⟨v, ?_, ?_⟩
  · have hexpr' : form.toExpr (e.track event).after.names = .ok expr := hexpr
    rw [evaluate_eq hexpr', scope_after_track hafter, ← hsame]
    exact congrArg (Except.mapError Failure.evaluation) hv
  · have hvalue : (Aggregator.values (e.aggregators.withStates (new.take new.length))).get? name = _ :=
      Table.get?_values_withStates ha new.length
    rw [List.take_length, if_pos (by omega), hi, ← hstate] at hvalue
    rw [values, hafter]
    exact hvalue

/-- The sum of the events so far and of what `rest` makes of a property. -/
def sumSoFar : Form :=
  .list [.atom (.text "+"), .atom (.text "agg.n"), .list [.atom (.text "func.rest"), .atom (.text "event.v")]]

/-- A selection behind a funnel that it refers to, also in a function that calls itself. -/
def funnelShown : Specification :=
  let body : Form := .list [.atom (.text "if"), .atom (.text "arg.0"), .list [.atom (.text "+"),
    .list [.atom (.text "func.rest"), .list [.atom (.text "-"), .atom (.text "arg.0"), .atom (.number 1)]],
    .atom (.text "agg.n")], .atom (.number 0)]
  ((Specification.empty.withFunction "rest" body).withAggregator "n" (.list [.atom (.text "funnel"),
    .atom (.bool true)])).withAggregator "shown" (.list [.atom (.text "select_if"), .atom (.bool true), sumSoFar])

def shownOnce : Engine :=
  (((Engine.new .any 3).update funnelShown).after.track (Event.empty.set "v" (.number 1))).after

/-- The function comes to the limit and not beyond it, as it would for an event with a larger property. -/
theorem evaluate_after_shownOnce : Reachable shownOnce ∧
    (∃ a, shownOnce.aggregators.entries.getLast? = some ("shown", a) ∧
      a.source = .list [.atom (.text "select_if"), .atom (.bool true), sumSoFar]) ∧
    (∀ expr, sumSoFar.toExpr shownOnce.names = .ok expr →
      ∀ part, Involves shownOnce.functions [expr] part → "shown" ∉ part.aggregators) ∧
    (shownOnce.track (Event.empty.set "v" (.number 2))).result = .ok () ∧
    (shownOnce.track (Event.empty.set "v" (.number 3))).result =
      .error (.evaluation (.callDepthExceeded "rest" 3)) ∧
    (shownOnce.track (Event.empty.set "v" (.number 2))).after.values.get? "shown" = some (.number 6) ∧
    (shownOnce.track (Event.empty.set "v" (.number 2))).after.evaluate sumSoFar = .ok (.number 6) := by
  have hreach : Reachable shownOnce := .track _ (.update _ (.new .any 3))
  have hlast : shownOnce.aggregators.entries.getLast?.map (fun p => (p.1, p.2.source)) =
      some ("shown", .list [.atom (.text "select_if"), .atom (.bool true), sumSoFar]) := by decide +kernel
  obtain ⟨⟨name, a⟩, ha, hname⟩ := Option.map_eq_some_iff.mp hlast
  obtain ⟨rfl, hsource⟩ := Prod.mk.inj hname
  have hclosed : ∀ expr ∈ (sumSoFar.toExpr shownOnce.names).toOption,
      ∀ part ∈ Expr.withBodies shownOnce.functions ["rest"] [expr],
        (∀ function ∈ part.callees, function ∈ ["rest"]) ∧ "shown" ∉ part.aggregators := by decide +kernel
  have hapart : ∀ expr, sumSoFar.toExpr shownOnce.names = .ok expr →
      ∀ part, Involves shownOnce.functions [expr] part → "shown" ∉ part.aggregators := by
    intro expr hexpr part hpart
    have hexpr : expr ∈ (sumSoFar.toExpr shownOnce.names).toOption := by rw [hexpr]; rfl
    exact (hclosed expr hexpr part (hpart.mem_withBodies fun e he => (hclosed expr hexpr e he).1)).2
  have hok : (shownOnce.track (Event.empty.set "v" (.number 2))).result = .ok () := by decide +kernel
  have hvalue : (shownOnce.track (Event.empty.set "v" (.number 2))).after.values.get? "shown" =
      some (.number 6) := by decide +kernel
  obtain ⟨v, hv, hshown⟩ := hreach.evaluate_after ha hsource hapart _ hok
  rw [hvalue] at hshown
  obtain rfl := Option.some.inj hshown
  exact ⟨hreach, ⟨a, ha, hsource⟩, hapart, hok, by decide +kernel, hvalue, hv⟩

end Engine

end EventFold
