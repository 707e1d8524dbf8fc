import EventFold.Proofs.Engine.Folding
import EventFold.Proofs.Engine.Reachable
import EventFold.Proofs.Form.Agreement

/-!
# What an update promises

`Reconciled` relates an engine, a specification and the report of an update to the engine after it: which
names are registered then and in what order, what the report lists, and when the log was replayed. Every
update of a reachable engine that succeeds keeps it, if no NaN is written in the specification.

It rests on the soundness of reachable engines in one place. An entry whose name is registered under an
agreeing form is not read again; it could be read, since the registered form was.
-/

namespace EventFold

/-- Why the form is no aggregator, if it is none. -/
def Form.ruleError? (names : Vocabulary) (f : Form) : Option FormError :=
  match f.toRule names with
  | .ok _ => none
  | .error e => some e

theorem Form.ruleError?_eq_none_iff {names : Vocabulary} {f : Form} :
    f.ruleError? names = none ↔ ∃ rule, f.toRule names = .ok rule := by
  unfold ruleError?
  cases f.toRule names <;> simp

namespace Reconciliation

variable {names : Vocabulary} {registry : Table Aggregator} {name : String} {form : Form}

/-- Whether the name is registered under a form that agrees. -/
def isCurrent (registry : Table Aggregator) (name : String) (form : Form) : Bool :=
  (registry.get? name).any fun a => a.source.agrees form

theorem isRead_verdict : (verdict names registry (name, form)).isRead =
    ((form.ruleError? names).isNone && !isCurrent registry name form) := by
  simp only [verdict, isCurrent, Aggregator.ofForm, Form.ruleError?]
  split
  · simp_all
  · cases form.toRule names <;> simp_all [Except.map]

/-- A refused entry is no rule. In a sound registry the converse holds, as what is kept is a rule. -/
theorem error?_verdict (h : Aggregator.AllSound names registry) :
    (verdict names registry (name, form)).error? = form.ruleError? names := by
  by_cases hkept : verdict names registry (name, form) = .kept
  · obtain ⟨a, ha, hagree⟩ := verdict_eq_kept_iff.mp hkept
    rw [hkept, Form.ruleError?_eq_none_iff.mpr (Form.toRule_of_agrees hagree (h name a ha).rule_eq)]
    rfl
  · cases hv : verdict names registry (name, form) with
    | kept => exact absurd hv hkept
    | read a =>
      obtain ⟨rule, hrule, -⟩ := map_eq_ok_iff.mp (verdict_eq_read_iff.mp hv).2
      rw [Form.ruleError?_eq_none_iff.mpr ⟨rule, hrule⟩]
      rfl
    | refused error =>
      have hread := (verdict_eq_refused_iff.mp hv).2
      unfold Aggregator.ofForm at hread
      cases hrule : form.toRule names with
      | ok rule =>
        rw [hrule] at hread
        cases hread
      | error e =>
        rw [hrule] at hread
        cases hread
        simp [Form.ruleError?, hrule]

variable {entries : Table Form}

theorem run_contains_iff (h : Aggregator.AllSound names registry) :
    (run names registry entries).registry.contains name = true ↔
      ∃ form rule, entries.get? name = some form ∧ form.toRule names = .ok rule := by
  rw [Table.contains, run_get?]
  cases hform : entries.get? name with
  | none => simp
  | some form =>
    have herror : (verdict names registry (name, form)).error? = form.ruleError? names := error?_verdict h
    rw [Option.map_some]
    cases hv : verdict names registry (name, form) with
    | kept =>
      obtain ⟨a, ha, -⟩ := verdict_eq_kept_iff.mp hv
      rw [hv] at herror
      obtain ⟨rule, hrule⟩ := Form.ruleError?_eq_none_iff.mp herror.symm
      simp [ha, hrule]
    | read a =>
      rw [hv] at herror
      obtain ⟨rule, hrule⟩ := Form.ruleError?_eq_none_iff.mp herror.symm
      simp [hrule]
    | refused error =>
      rw [hv, Verdict.error?_refused] at herror
      have hnone : ¬ ∃ rule, form.toRule names = .ok rule := by
        rw [← Form.ruleError?_eq_none_iff, ← herror]
        simp
      simpa using hnone

/-- What is registered in the end was kept or read. -/
theorem exists_form_of_run_get? {a : Aggregator}
    (ha : (run names registry entries).registry.get? name = some a) :
    ∃ form, entries.get? name = some form ∧
      (a.source.agrees form = true ∨ Aggregator.ofForm names name form = .ok a) := by
  rw [run_get?] at ha
  cases hform : entries.get? name with
  | none =>
    rw [hform] at ha
    cases ha
  | some form =>
    rw [hform, Option.map_some] at ha
    refine ⟨form, rfl, ?_⟩
    cases hv : verdict names registry (name, form) with
    | kept =>
      obtain ⟨b, hb, hagree⟩ := verdict_eq_kept_iff.mp hv
      rw [hv] at ha
      obtain rfl : a = b := Option.some.inj (ha.symm.trans hb)
      exact .inl hagree
    | read b =>
      rw [hv] at ha
      cases ha
      exact .inr (verdict_eq_read_iff.mp hv).2
    | refused error =>
      rw [hv] at ha
      cases ha

/-- What is registered in the end has a source that agrees with the entry. An entry that was read agrees
with itself if it is definite. -/
theorem agrees_of_run_get? (hdef : ∀ form, entries.get? name = some form → form.isDefinite = true)
    {a : Aggregator} (ha : (run names registry entries).registry.get? name = some a) :
    ∃ form, entries.get? name = some form ∧ a.source.agrees form = true := by
  obtain ⟨form, hform, hagree | hread⟩ := exists_form_of_run_get? ha
  · exact ⟨form, hform, hagree⟩
  · refine ⟨form, hform, ?_⟩
    rw [(Aggregator.isSound_of_ofForm hread).1]
    exact Form.agrees_self (hdef form hform)

end Reconciliation

namespace Engine

open Reconciliation

/-- What holds between an engine, a specification, the report of an update and the engine after it. -/
structure Reconciled (c : Engine) (spec : Specification) (u : Update) (d : Engine) : Prop where
  /-- The names of the entries that are rules are registered, and no others. -/
  registered : ∀ name, d.aggregators.contains name = true ↔
    ∃ form rule, spec.aggregators.get? name = some form ∧ form.toRule c.names = .ok rule
  sources : ∀ name a, d.aggregators.get? name = some a →
    ∃ form, spec.aggregators.get? name = some form ∧ a.source.agrees form = true
  /-- The names that survive keep their order. New ones follow in the order of the document. -/
  order : d.aggregators.keys =
    (c.aggregators.keys.filter fun name => d.aggregators.contains name) ++
      spec.aggregators.keys.filter fun name =>
        d.aggregators.contains name && !c.aggregators.contains name
  changed : u.changed = (spec.aggregators.entries.filter fun entry =>
    (entry.2.ruleError? c.names).isNone && !isCurrent c.aggregators entry.1 entry.2).map Prod.fst
  rejected : u.rejected = spec.aggregators.entries.filterMap fun entry =>
    (entry.2.ruleError? c.names).map (entry.1, ·)
  removed : u.removed = c.aggregators.keys.filter fun name => !spec.aggregators.contains name
  changed_rejected : ∀ name ∈ u.changed, name ∉ u.rejected.map Prod.fst
  changed_removed : ∀ name ∈ u.changed, name ∉ u.removed
  rejected_removed : ∀ name ∈ u.rejected.map Prod.fst, name ∉ u.removed
  /-- Tables are compared name by name, in whatever order. -/
  variablesChanged : u.variablesChanged = true ↔
    ¬ ∀ name, Option.Rel (fun v w => v.agrees w = true) (c.vars.get? name) (spec.vars.get? name)
  replayed : u.replayed = true ↔ u.variablesChanged = true ∨ u.changed ≠ [] ∨ u.removed ≠ [] ∨
    ∃ p ∈ u.rejected, c.aggregators.contains p.1 = true

variable {c : Engine} {spec : Specification} {u : Update}

/-- Apart from states the registry after an update is the reconciled one, as a replay changes states alone. -/
theorem fresh_update (hok : (c.update spec).result = .ok u) : fresh (c.update spec).after.aggregators =
    fresh (run c.names c.aggregators spec.aggregators).registry := by
  obtain ⟨bodies, -, ⟨-, -, hreplay, hafter⟩ | ⟨-, -, hafter⟩⟩ := update_eq_ok hok
  · rw [hafter, (folds_of_replay hreplay).fresh_eq, fresh_fresh]
    rfl
  · rw [hafter]
    rfl

theorem report_of_update (hok : (c.update spec).result = .ok u) :
    u = c.report spec (c.isStale spec) := by
  obtain ⟨bodies, -, ⟨hstale, hu, -, -⟩ | ⟨hstale, hu, -⟩⟩ := update_eq_ok hok
  · rw [hstale, hu]
  · rw [hstale, hu]

theorem changed_report (replayed : Bool) : (c.report spec replayed).changed =
    (spec.aggregators.entries.filter fun entry =>
      (entry.2.ruleError? c.names).isNone && !isCurrent c.aggregators entry.1 entry.2).map Prod.fst := by
  change (run c.names c.aggregators spec.aggregators).changed = _
  rw [run_changed, judged, List.filter_map, List.map_map]
  congr 1
  apply List.filter_congr
  intro entry _
  exact isRead_verdict

theorem rejected_report (h : c.Sound) (replayed : Bool) : (c.report spec replayed).rejected =
    spec.aggregators.entries.filterMap fun entry => (entry.2.ruleError? c.names).map (entry.1, ·) := by
  change (run c.names c.aggregators spec.aggregators).rejected = _
  rw [run_rejected, judged, List.filterMap_map]
  congr 1
  funext entry
  rw [Function.comp_apply, error?_verdict h]

theorem variablesChanged_report (replayed : Bool) : (c.report spec replayed).variablesChanged = true ↔
    ¬ ∀ name, Option.Rel (fun v w => v.agrees w = true) (c.vars.get? name) (spec.vars.get? name) := by
  rw [← Table.agrees_iff, Bool.not_eq_true]
  exact (Bool.not_eq_true' _).to_iff

theorem isStale_iff : c.isStale spec = true ↔
    (c.report spec true).variablesChanged = true ∨ (c.report spec true).changed ≠ [] ∨
      (c.report spec true).removed ≠ [] ∨
        ∃ p ∈ (c.report spec true).rejected, c.aggregators.contains p.1 = true := by
  rw [isStale, Bool.or_eq_true, run_dirty_iff]
  rfl

theorem mem_changed_report {name : String} {replayed : Bool} :
    name ∈ (c.report spec replayed).changed ↔ ∃ form, spec.aggregators.get? name = some form ∧
      form.ruleError? c.names = none ∧ isCurrent c.aggregators name form = false := by
  simp [changed_report, Table.get?_eq_some_iff]

theorem mem_rejected_report (h : c.Sound) {name : String} {error : FormError} {replayed : Bool} :
    (name, error) ∈ (c.report spec replayed).rejected ↔
      ∃ form, spec.aggregators.get? name = some form ∧ form.ruleError? c.names = some error := by
  simp only [rejected_report h, List.mem_filterMap, Table.get?_eq_some_iff]
  constructor
  · rintro ⟨⟨n, form⟩, hentry, hp⟩
    obtain ⟨e, herror, heq⟩ := Option.map_eq_some_iff.mp hp
    obtain ⟨rfl, rfl⟩ := Prod.mk.inj heq
    exact ⟨form, hentry, herror⟩
  · rintro ⟨form, hentry, herror⟩
    exact ⟨(name, form), hentry, by rw [herror]; rfl⟩

theorem mem_removed_report {name : String} {replayed : Bool} :
    name ∈ (c.report spec replayed).removed ↔
      c.aggregators.contains name = true ∧ spec.aggregators.get? name = none := by
  change name ∈ (run c.names c.aggregators spec.aggregators).removed ↔ _
  simp [run_removed, Table.contains_iff, ← Table.contains_eq_false_iff]

/-- The postcondition of an update that succeeds. -/
theorem Reachable.reconciled (hc : Reachable c)
    (hspec : ∀ name form, spec.aggregators.get? name = some form → form.isDefinite = true)
    (hok : (c.update spec).result = .ok u) : Reconciled c spec u (c.update spec).after := by
  have hsound := hc.sound
  have hfresh := fresh_update hok
  have hcontains : ∀ name, (c.update spec).after.aggregators.contains name =
      (run c.names c.aggregators spec.aggregators).registry.contains name := by
    intro name
    rw [← contains_fresh, hfresh, contains_fresh]
  obtain rfl := report_of_update hok
  constructor
  case registered =>
    intro name
    rw [hcontains]
    exact run_contains_iff hsound
  case sources =>
    intro name a ha
    have hreset : (fresh (run c.names c.aggregators spec.aggregators).registry).get? name = some a.reset := by
      rw [← hfresh, get?_fresh, ha]
      rfl
    rw [get?_fresh] at hreset
    obtain ⟨b, hb, hba⟩ := Option.map_eq_some_iff.mp hreset
    obtain ⟨form, hform, hagree⟩ := agrees_of_run_get? (hspec name) hb
    have hsource : b.reset.source = a.reset.source := by rw [hba]
    exact ⟨form, hform, hsource ▸ hagree⟩
  case order =>
    simp only [hcontains]
    rw [← run_keys, ← keys_fresh, hfresh, keys_fresh]
  case changed => exact changed_report _
  case rejected => exact rejected_report hsound _
  case removed => exact run_removed
  case changed_rejected =>
    intro name hchanged hrejected
    obtain ⟨⟨n, error⟩, hp, rfl⟩ := List.mem_map.mp hrejected
    obtain ⟨form, hform, hnone, -⟩ := mem_changed_report.mp hchanged
    obtain ⟨form', hform', herror⟩ := (mem_rejected_report hsound).mp hp
    rw [hform] at hform'
    cases hform'
    rw [hnone] at herror
    cases herror
  case changed_removed =>
    intro name hchanged hremoved
    obtain ⟨form, hform, -⟩ := mem_changed_report.mp hchanged
    rw [(mem_removed_report.mp hremoved).2] at hform
    cases hform
  case rejected_removed =>
    intro name hrejected hremoved
    obtain ⟨⟨n, error⟩, hp, rfl⟩ := List.mem_map.mp hrejected
    obtain ⟨form, hform, -⟩ := (mem_rejected_report hsound).mp hp
    rw [(mem_removed_report.mp hremoved).2] at hform
    cases hform
  case variablesChanged => exact variablesChanged_report _
  case replayed => exact isStale_iff

def everyEvent : Form := .list [.atom (.text "funnel"), .atom (.bool true)]

def threeFunnels : Engine :=
  let spec := ((Specification.empty.withAggregator "a" everyEvent).withAggregator "b" everyEvent).withAggregator
    "d" everyEvent
  (((Engine.new .any 8).update spec).after.track (.named "go")).after

/-- Of the three funnels `a` is no rule any more, `b` stays and `d` is gone. A new one comes first. -/
def otherFunnels : Specification :=
  ((Specification.empty.withAggregator "c" everyEvent).withAggregator "b" everyEvent).withAggregator "a" (.list [])

theorem reconciled_otherFunnels : Reachable threeFunnels ∧
    (threeFunnels.update otherFunnels).result =
      .ok ⟨false, ["c"], ["d"], [("a", .emptyForm)], true⟩ ∧
    (threeFunnels.update otherFunnels).after.aggregators.keys = ["b", "c"] ∧
    Reconciled threeFunnels otherFunnels ⟨false, ["c"], ["d"], [("a", .emptyForm)], true⟩
      (threeFunnels.update otherFunnels).after := by
  have hreach : Reachable threeFunnels := .track _ (.update _ (.new .any 8))
  have hok : (threeFunnels.update otherFunnels).result =
      .ok ⟨false, ["c"], ["d"], [("a", .emptyForm)], true⟩ :=
    eq_ok_of_toOption (by decide +kernel)
  have hall : (otherFunnels.aggregators.entries.all fun entry => entry.2.isDefinite) = true := by
    decide +kernel
  refine ⟨hreach, hok, by decide +kernel, Reachable.reconciled hreach ?_ hok⟩
  intro name form h
  exact List.all_eq_true.mp hall _ (Table.get?_eq_some_iff.mp h)

end Engine

end EventFold
