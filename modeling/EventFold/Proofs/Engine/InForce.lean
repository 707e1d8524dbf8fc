import EventFold.Proofs.Engine.Reconciled
import EventFold.Proofs.Form.Zeros

/-!
# What is in force after an update

The functions of a specification are always taken over. Its variables and its aggregators are compared with the
old ones first, and what compares equal is not replaced. As the comparison does not see the sign of a zero, a
`-0` that a specification has in the place of a `0` does not come into force. It is the only thing that does not.
-/

namespace EventFold

namespace Reconciliation

variable {names : Vocabulary} {registry : Table Aggregator} {entries : Table Form} {name : String}

/-- What is registered in the end has the rule of the entry. Of an entry that was kept it may have other zeros. -/
theorem rule_of_run_get? (h : Aggregator.AllSound names registry) {a : Aggregator}
    (ha : (run names registry entries).registry.get? name = some a) :
    ∃ form rule, entries.get? name = some form ∧ form.toRule names = .ok rule ∧
      a.rule.unsigned = rule.unsigned ∧ (form.hasZero = false → a.rule = rule) := by
  have hrule : a.source.toRule names = .ok a.rule := (run_allSound h entries name a ha).rule_eq
  obtain ⟨form, hform, hagree | hread⟩ := exists_form_of_run_get? ha
  · obtain ⟨rule, hrule'⟩ := Form.toRule_of_agrees hagree hrule
    refine ⟨form, rule, hform, hrule', Form.unsigned_eq_of_toRule hagree hrule hrule', fun hzero => ?_⟩
    obtain rfl : a.source = form := Form.eq_of_unsigned_eq (Form.unsigned_eq_of_agrees hagree) hzero
    exact Except.ok.inj (hrule.symm.trans hrule')
  · obtain ⟨rfl, -⟩ := Aggregator.isSound_of_ofForm hread
    exact ⟨_, a.rule, hform, hrule, rfl, fun _ => rfl⟩

end Reconciliation

namespace Engine

/-- What is in force of a specification: its functions, and its variables and rules up to the signs of zeros. -/
structure InForce (spec : Specification) (d : Engine) : Prop where
  functions : ∃ bodies, readFunctions d.names spec.functions.entries = .ok bodies ∧
    d.functions = .ofList bodies
  vars : ∀ name, (d.vars.get? name).map Value.unsigned = (spec.vars.get? name).map Value.unsigned
  vars_of_not_zero : ∀ name v, spec.vars.get? name = some v → v.isZero = false →
    d.vars.get? name = some v
  rules : ∀ name a, d.aggregators.get? name = some a →
    ∃ form rule, spec.aggregators.get? name = some form ∧ form.toRule d.names = .ok rule ∧
      a.rule.unsigned = rule.unsigned ∧ (form.hasZero = false → a.rule = rule)

variable {c : Engine} {spec : Specification} {u : Update}

theorem unsigned_get?_of_agrees {vars others : Table Value} (h : vars.agrees Value.agrees others = true)
    (name : String) :
    (vars.get? name).map Value.unsigned = (others.get? name).map Value.unsigned := by
  have hrel := Table.agrees_iff.mp h name
  generalize vars.get? name = v at hrel ⊢
  generalize others.get? name = w at hrel ⊢
  cases hrel with
  | none => rfl
  | some hsame => exact congrArg some (Value.unsigned_eq_of_agrees hsame)

theorem unsigned_vars_update (hok : (c.update spec).result = .ok u) (name : String) :
    ((c.update spec).after.vars.get? name).map Value.unsigned =
      (spec.vars.get? name).map Value.unsigned := by
  obtain ⟨bodies, -, hafter⟩ := exists_aligned_of_update hok
  rw [hafter]
  simp only [aligned]
  split
  · rename_i hagree
    exact unsigned_get?_of_agrees hagree name
  · rfl

/-- After an update that succeeds the specification is in force, up to the signs of its zeros. -/
theorem Reachable.inForce (hc : Reachable c) (hok : (c.update spec).result = .ok u) :
    InForce spec (c.update spec).after := by
  obtain ⟨bodies, hbodies, hafter⟩ := exists_aligned_of_update hok
  have hnames : (c.update spec).after.names = c.names := by
    rw [hafter]
    rfl
  have hfunctions : (c.update spec).after.functions = .ofList bodies := by
    rw [hafter]
    rfl
  constructor
  case functions => exact ⟨bodies, hnames ▸ hbodies, hfunctions⟩
  case vars => exact unsigned_vars_update hok
  case vars_of_not_zero =>
    intro name v hv hzero
    have hsame := unsigned_vars_update hok name
    rw [hv, Option.map_some] at hsame
    obtain ⟨w, hw, hwv⟩ := Option.map_eq_some_iff.mp hsame
    rw [hw, Value.eq_of_unsigned_eq hwv hzero]
  case rules =>
    intro name a ha
    obtain ⟨b, hb, hreset⟩ := exists_reset_eq (fresh_update hok).symm ha
    have hrule : b.reset.rule = a.reset.rule := by rw [hreset]
    change b.rule = a.rule at hrule
    rw [hnames, ← hrule]
    exact Reconciliation.rule_of_run_get? hc.sound hb

def selecting (x : Number) : Form := .list [.atom (.text "select_if"), .atom (.bool true), .atom (.number x)]

/-- A variable, a function and an aggregator with the same number in each. -/
def everywhere (x : Number) : Specification :=
  ((Specification.empty.withVariable "x" (.number x)).withFunction "f" (.atom (.number x))).withAggregator "a"
    (selecting x)

def zeroEverywhere : Engine := ((Engine.new .any 8).update (everywhere 0)).after

/-- Where there is a `0` before, a `-0` comes into force in the functions alone. -/
theorem inForce_zeroEverywhere : Reachable zeroEverywhere ∧
    (zeroEverywhere.update (everywhere (-0))).result = .ok .none ∧
    (zeroEverywhere.update (everywhere (-0))).after.vars.get? "x" = some (.number 0) ∧
    Value.number 0 ≠ .number (-0) ∧
    ((zeroEverywhere.update (everywhere (-0))).after.aggregators.get? "a").map (·.source) =
      some (selecting 0) ∧
    InForce (everywhere (-0)) (zeroEverywhere.update (everywhere (-0))).after := by
  have hreach : Reachable zeroEverywhere := .update _ (.new .any 8)
  have hok : (zeroEverywhere.update (everywhere (-0))).result = .ok .none := by decide +kernel
  exact ⟨hreach, hok, by decide +kernel, by decide +kernel, by decide +kernel, hreach.inForce hok⟩

end Engine

end EventFold
