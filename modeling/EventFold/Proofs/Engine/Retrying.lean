import EventFold.Proofs.Engine.Reconciled

/-!
# Updates that are tried again

An update in which an evaluation fails leaves the tables and the registry of the new specification behind,
with the states as they were when the replay broke off. To try it again is to compare the specification with
itself. Nothing is found to be different, so nothing is replayed: the second try succeeds and leaves the
broken states as they are. Only a specification that is not equal to itself, as one with NaN, is replayed
again, and fails again.
-/

namespace EventFold

/-- No NaN is written in the variables and the aggregators, so that they agree with themselves. -/
def Specification.IsDefinite (spec : Specification) : Prop :=
  (∀ name v, spec.vars.get? name = some v → v.isDefinite = true) ∧
    ∀ name form, spec.aggregators.get? name = some form → form.isDefinite = true

theorem Specification.isDefinite_of_all {spec : Specification}
    (hvars : (spec.vars.entries.all fun entry => entry.2.isDefinite) = true)
    (haggregators : (spec.aggregators.entries.all fun entry => entry.2.isDefinite) = true) :
    spec.IsDefinite :=
  ⟨fun _ _ hv => List.all_eq_true.mp hvars _ (Table.get?_eq_some_iff.mp hv),
    fun _ _ hform => List.all_eq_true.mp haggregators _ (Table.get?_eq_some_iff.mp hform)⟩

namespace Reconciliation

open Engine (fresh contains_of_fresh_eq exists_reset_eq)

-- `again` is the registry that a reconciliation left, in whatever states
variable {names : Vocabulary} {registry again : Table Aggregator} {entries : Table Form} {name : String}
  {form : Form}

theorem exists_error_of_run_get? (hnone : (run names registry entries).registry.get? name = none)
    (hform : entries.get? name = some form) :
    ∃ error, Aggregator.ofForm names name form = .error error := by
  rw [run_get?, hform, Option.map_some] at hnone
  cases hv : verdict names registry (name, form) with
  | kept =>
    obtain ⟨b, hb, -⟩ := verdict_eq_kept_iff.mp hv
    rw [hv] at hnone
    cases hb.symm.trans hnone
  | read b =>
    rw [hv] at hnone
    cases hnone
  | refused error => exact ⟨error, (verdict_eq_refused_iff.mp hv).2⟩

section Again

variable (h : fresh again = fresh (run names registry entries).registry)
include h

theorem registered_again {b : Aggregator} (hb : again.get? name = some b) :
    ∃ form, entries.get? name = some form ∧ (b.source.agrees form = true ∨
      ∃ a, Aggregator.ofForm names name form = .ok a ∧ a.reset = b.reset) := by
  obtain ⟨a, ha, hreset⟩ := exists_reset_eq h.symm hb
  obtain ⟨form, hform, hsame⟩ := exists_form_of_run_get? ha
  refine ⟨form, hform, ?_⟩
  rcases hsame with hagree | hread
  · have hsource : a.reset.source = b.reset.source := by rw [hreset]
    exact .inl (hsource ▸ hagree)
  · exact .inr ⟨a, hread, hreset⟩

theorem refused_again (hnone : again.get? name = none) (hform : entries.get? name = some form) :
    ∃ error, verdict names again (name, form) = .refused error := by
  have hrun : (run names registry entries).registry.get? name = none := by
    rw [← Table.contains_eq_false_iff, ← contains_of_fresh_eq h, Table.contains_eq_false_iff, hnone]
  obtain ⟨error, herror⟩ := exists_error_of_run_get? hrun hform
  exact ⟨error, by simp [verdict, hnone, herror]⟩

theorem reset_run_again : ((run names again entries).registry.get? name).map Aggregator.reset =
    (again.get? name).map Aggregator.reset := by
  rw [run_get?]
  cases hb : again.get? name with
  | none =>
    cases hform : entries.get? name with
    | none => rfl
    | some form =>
      obtain ⟨error, hv⟩ := refused_again h hb hform
      rw [Option.map_some, hv]
  | some b =>
    obtain ⟨form, hform, hsame⟩ := registered_again h hb
    rw [hform, Option.map_some]
    cases hv : verdict names again (name, form) with
    | kept => rfl
    | read c =>
      obtain ⟨hnew, hread⟩ := verdict_eq_read_iff.mp hv
      rcases hsame with hagree | ⟨a, hread', hreset⟩
      · exact absurd (verdict_eq_kept_iff.mpr ⟨b, hb, hagree⟩) hnew
      · obtain rfl : c = a := Except.ok.inj (hread.symm.trans hread')
        simp only [Option.map_some, hreset]
    | refused error =>
      obtain ⟨hnew, hread⟩ := verdict_eq_refused_iff.mp hv
      rcases hsame with hagree | ⟨a, hread', -⟩
      · exact absurd (verdict_eq_kept_iff.mpr ⟨b, hb, hagree⟩) hnew
      · rw [hread] at hread'
        cases hread'

/-- It finds the same names, in the same order and with the same sources and rules. -/
theorem fresh_run_again : fresh (run names again entries).registry = fresh again := by
  have hcontains : ∀ name, (run names again entries).registry.contains name = again.contains name := by
    intro name
    have hreset : ((run names again entries).registry.get? name).map Aggregator.reset =
        (again.get? name).map Aggregator.reset := reset_run_again h
    simpa [Table.contains] using congrArg Option.isSome hreset
  apply Table.ext_get?
  · rw [Engine.keys_fresh, Engine.keys_fresh, run_keys]
    simp only [hcontains, Bool.and_not_self]
    rw [List.filter_eq_self.mpr fun n hn => Table.contains_iff.mpr hn]
    simp
  · intro name
    rw [Engine.get?_fresh, Engine.get?_fresh, reset_run_again h]

theorem verdict_again (hdef : form.isDefinite = true) (hform : entries.get? name = some form) :
    (verdict names again (name, form) = .kept ∧ again.contains name = true) ∨
      ∃ error, verdict names again (name, form) = .refused error ∧ again.contains name = false := by
  cases hb : again.get? name with
  | none =>
    obtain ⟨error, hv⟩ := refused_again h hb hform
    exact .inr ⟨error, hv, Table.contains_eq_false_iff.mpr hb⟩
  | some b =>
    obtain ⟨form', hform', hsame⟩ := registered_again h hb
    obtain rfl : form = form' := Option.some.inj (hform.symm.trans hform')
    refine .inl ⟨verdict_eq_kept_iff.mpr ⟨b, hb, ?_⟩, by simp [Table.contains, hb]⟩
    rcases hsame with hagree | ⟨a, hread, hreset⟩
    · exact hagree
    · have hsource : a.reset.source = b.reset.source := by rw [hreset]
      change a.source = b.source at hsource
      rw [← hsource, (Aggregator.isSound_of_ofForm hread).1]
      exact Form.agrees_self hdef

/-- If all forms agree with themselves, each entry that was not refused is kept, and no replay is needed. -/
theorem run_again_clean (hdef : ∀ name form, entries.get? name = some form → form.isDefinite = true) :
    (run names again entries).dirty = false := by
  rw [← Bool.not_eq_true, run_dirty_iff]
  rintro (hchanged | hremoved | ⟨⟨name, error⟩, hp, hcontains⟩)
  · apply hchanged
    rw [run_changed, List.map_eq_nil_iff, List.filter_eq_nil_iff]
    intro j hj
    obtain ⟨form, hform, hv⟩ := mem_judged_iff.mp hj
    rcases verdict_again h (hdef j.1 form hform) hform with ⟨hkept, -⟩ | ⟨error, hrefused, -⟩
    · simp [← hv, hkept]
    · simp [← hv, hrefused]
  · apply hremoved
    rw [run_removed, List.filter_eq_nil_iff]
    intro name hname
    obtain ⟨b, hb⟩ := Option.isSome_iff_exists.mp (Table.get?_isSome_iff.mpr hname)
    obtain ⟨form, hform, -⟩ := registered_again h hb
    simp [Table.contains, hform]
  · rw [run_rejected] at hp
    obtain ⟨j, hj, he⟩ := List.mem_filterMap.mp hp
    obtain ⟨form, hform, hv⟩ := mem_judged_iff.mp hj
    obtain ⟨error', herror, heq⟩ := Option.map_eq_some_iff.mp he
    obtain ⟨rfl, rfl⟩ := Prod.mk.inj heq
    rcases verdict_again h (hdef j.1 form hform) hform with ⟨hkept, -⟩ | ⟨_, -, hgone⟩
    · rw [← hv, hkept] at herror
      cases herror
    · rw [hgone] at hcontains
      cases hcontains

end Again

end Reconciliation

namespace Engine

variable {e : Engine} {spec : Specification} {functions : Table Expr} {registry : Table Aggregator}
  {error : EvalError}

theorem vars_aligned_of_not_agrees
    (h : (e.aligned spec functions).vars.agrees Value.agrees spec.vars = false) :
    (e.aligned spec functions).vars = spec.vars := by
  unfold aligned at h ⊢
  simp only at h ⊢
  split
  · rename_i hagree
    rw [if_pos hagree, hagree] at h
    cases h
  · rfl

/-- Taking over a specification again changes states alone. -/
theorem aligned_again (h : fresh registry = fresh (e.aligned spec functions).aggregators) :
    ∃ again, fresh again = fresh registry ∧
      ({ e.aligned spec functions with aggregators := registry } : Engine).aligned spec functions =
        { e.aligned spec functions with aggregators := again } := by
  refine ⟨(Reconciliation.run e.names registry spec.aggregators).registry,
    Reconciliation.fresh_run_again h, ?_⟩
  have hvars : (if (e.aligned spec functions).vars.agrees Value.agrees spec.vars
      then (e.aligned spec functions).vars else spec.vars) = (e.aligned spec functions).vars := by
    cases hagree : (e.aligned spec functions).vars.agrees Value.agrees spec.vars with
    | true => rfl
    | false => exact (vars_aligned_of_not_agrees hagree).symm
  change ({ e.aligned spec functions with
    vars := if (e.aligned spec functions).vars.agrees Value.agrees spec.vars
      then (e.aligned spec functions).vars else spec.vars
    aggregators := (Reconciliation.run e.names registry spec.aggregators).registry } : Engine) = _
  rw [hvars]

theorem not_isStale_again (hdef : spec.IsDefinite)
    (h : fresh registry = fresh (e.aligned spec functions).aggregators) :
    ({ e.aligned spec functions with aggregators := registry } : Engine).isStale spec = false := by
  have hvars : (e.aligned spec functions).vars.agrees Value.agrees spec.vars = true := by
    rw [← Bool.not_eq_false]
    intro hagree
    rw [vars_aligned_of_not_agrees hagree, ← Bool.not_eq_true, Table.agrees_iff] at hagree
    apply hagree
    intro name
    cases hv : spec.vars.get? name with
    | none => exact .none
    | some v => exact .some (Value.agrees_self (hdef.1 name v hv))
  have hclean := Reconciliation.run_again_clean h hdef.2
  rw [isStale, Bool.or_eq_false_iff]
  exact ⟨by rw [hvars]; rfl, hclean⟩

/-- After an update in which an evaluation has failed a whole replay fails too, and trying the update again
changes nothing. It fails in the same way or succeeds without a replay; it succeeds if no NaN is written in
the specification. -/
theorem retry_after_failure (h : (e.update spec).result = .error (.evaluation error)) :
    (e.update spec).after.replay.result = .error (.evaluation error) ∧
    ((e.update spec).after.update spec).after = (e.update spec).after ∧
    (((e.update spec).after.update spec).result = .error (.evaluation error) ∨
      ∃ u, ((e.update spec).after.update spec).result = .ok u ∧ u.replayed = false) ∧
    (spec.IsDefinite → ∃ u, ((e.update spec).after.update spec).result = .ok u) := by
  obtain ⟨bodies, hbodies, hresult, hafter⟩ := update_eq_error h
  have hfresh : fresh (e.update spec).after.aggregators =
      fresh (e.aligned spec (.ofList bodies)).aggregators := by
    rw [hafter, fresh_replay]
  have hstate : (e.update spec).after =
      { e.aligned spec (.ofList bodies) with aggregators := (e.update spec).after.aggregators } := by
    rw [hafter]
    rfl
  generalize (e.update spec).after = d at hafter hfresh hstate ⊢
  have hbodies' : readFunctions d.names spec.functions.entries = .ok bodies := by
    rw [hstate]
    exact hbodies
  -- whatever states the replay begins with, it breaks off as it did and leaves `d`
  have hreplay : ∀ registry, fresh registry = fresh (e.aligned spec (.ofList bodies)).aggregators →
      ({ e.aligned spec (.ofList bodies) with aggregators := registry } : Engine).replay.result =
          .error (.evaluation error) ∧
        ({ e.aligned spec (.ofList bodies) with aggregators := registry } : Engine).replay.after = d := by
    intro registry hregistry
    obtain ⟨hsame, hsameAfter⟩ := replay_congr (e := e.aligned spec (.ofList bodies)) hregistry
    exact ⟨hsame.trans hresult, hsameAfter.trans hafter.symm⟩
  have hd := hreplay d.aggregators hfresh
  rw [← hstate] at hd
  refine ⟨hd.1, ?_⟩
  obtain ⟨again, hagain, haligned⟩ := aligned_again hfresh
  rw [← hstate] at haligned
  cases hstale : d.isStale spec with
  | true =>
    obtain ⟨hupdate, hupdateAfter⟩ := update_of_stale hbodies' hstale
    rw [haligned, (hreplay again (hagain.trans hfresh)).1] at hupdate
    rw [haligned, (hreplay again (hagain.trans hfresh)).2] at hupdateAfter
    refine ⟨hupdateAfter, .inl hupdate, fun hdef => ?_⟩
    have hnot := not_isStale_again hdef hfresh
    rw [← hstate, hstale] at hnot
    cases hnot
  | false =>
    obtain ⟨hupdate, hupdateAfter⟩ := update_of_not_stale hbodies' hstale
    have hsame : ({ d with functions := .ofList bodies } : Engine) = d := by
      rw [hstate]
      rfl
    rw [aligned_of_not_stale hstale, hsame] at hupdateAfter
    exact ⟨hupdateAfter, .inr ⟨_, hupdate, rfl⟩, fun _ => ⟨_, hupdate⟩⟩

/-- The second of two aggregators adds one to a name. -/
def sumOfNames : Specification :=
  (Specification.empty.withAggregator "n" everyEvent).withAggregator "sum"
    (.list [.atom (.text "select_if"), .list [.atom (.text "+"), .atom (.text "event.name"), .atom (.number 1)],
      .atom (.bool true)])

def goneTwice : Engine := (((Engine.new .any 8).track (.named "go")).after.track (.named "go")).after

/-- The first aggregator has seen one event of two, and stays so although the second try succeeds. -/
theorem retry_sumOfNames : Reachable goneTwice ∧ sumOfNames.IsDefinite ∧
    (goneTwice.update sumOfNames).result = .error (.evaluation (.notANumber .add (.text "go"))) ∧
    (goneTwice.update sumOfNames).after.aggregators.entries.map (fun p => (p.1, p.2.state)) =
      [("n", .reached 1), ("sum", .selected .null)] ∧
    (goneTwice.update sumOfNames).after.replay.result =
      .error (.evaluation (.notANumber .add (.text "go"))) ∧
    ((goneTwice.update sumOfNames).after.update sumOfNames).after = (goneTwice.update sumOfNames).after ∧
    ∃ u, ((goneTwice.update sumOfNames).after.update sumOfNames).result = .ok u := by
  have herror : (goneTwice.update sumOfNames).result =
      .error (.evaluation (.notANumber .add (.text "go"))) := by
    decide +kernel
  have hdef : sumOfNames.IsDefinite :=
    Specification.isDefinite_of_all (by decide +kernel) (by decide +kernel)
  obtain ⟨hreplay, hafter, -, hok⟩ := retry_after_failure herror
  exact ⟨.track _ (.track _ (.new .any 8)), hdef, herror, by decide +kernel, hreplay, hafter, hok hdef⟩

end Engine

end EventFold
