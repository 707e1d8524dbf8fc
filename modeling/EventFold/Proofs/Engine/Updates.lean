import EventFold.Proofs.Engine.Reconciling
import EventFold.Proofs.Results

/-!
# What an update has done

An update that has read all functions has taken over the tables, and then replayed the log or found no reason
to. `update_eq_ok` tells the two cases of success apart once and for all, as `failure_of_update` does the two of
failure; what follows from either is proved from it.
-/

namespace EventFold.Engine

variable {e : Engine} {spec : Specification} {u : Update} {functions : Table Expr}
  {bodies : List (String × Expr)}

def aligned (e : Engine) (spec : Specification) (functions : Table Expr) : Engine :=
  { e with
    vars := if e.vars.agrees Value.agrees spec.vars then e.vars else spec.vars
    functions
    aggregators := (Reconciliation.run e.names e.aggregators spec.aggregators).registry }

def report (e : Engine) (spec : Specification) (replayed : Bool) : Update :=
  let r := Reconciliation.run e.names e.aggregators spec.aggregators
  ⟨!e.vars.agrees Value.agrees spec.vars, r.changed, r.removed, r.rejected, replayed⟩

def isStale (e : Engine) (spec : Specification) : Bool :=
  !e.vars.agrees Value.agrees spec.vars || (Reconciliation.run e.names e.aggregators spec.aggregators).dirty

theorem takeOver_eq (e : Engine) (spec : Specification) (functions : Table Expr) :
    e.takeOver spec functions =
      if e.isStale spec then
        ⟨(e.aligned spec functions).replay.after,
          (e.aligned spec functions).replay.result.map fun _ => e.report spec true,
          (Reconciliation.run e.names e.aggregators spec.aggregators).notices ++
            (e.aligned spec functions).replay.notices⟩
      else
        ⟨e.aligned spec functions, .ok (e.report spec false),
          (Reconciliation.run e.names e.aggregators spec.aggregators).notices.push .unchanged⟩ :=
  rfl

theorem aligned_of_not_stale (h : e.isStale spec = false) :
    e.aligned spec functions = { e with functions } := by
  obtain ⟨hvars, hclean⟩ := Bool.or_eq_false_iff.mp h
  rw [Bool.not_eq_false'] at hvars
  simp only [aligned, hvars, if_true, Reconciliation.run_registry_of_clean hclean]

theorem update_of_stale (hbodies : readFunctions e.names spec.functions.entries = .ok bodies)
    (hstale : e.isStale spec = true) :
    (e.update spec).result =
        (e.aligned spec (.ofList bodies)).replay.result.map (fun _ => e.report spec true) ∧
      (e.update spec).after = (e.aligned spec (.ofList bodies)).replay.after := by
  simp only [update, hbodies, takeOver_eq, hstale, if_true]
  exact ⟨trivial, trivial⟩

theorem update_of_not_stale (hbodies : readFunctions e.names spec.functions.entries = .ok bodies)
    (hstale : e.isStale spec = false) :
    (e.update spec).result = .ok (e.report spec false) ∧
      (e.update spec).after = e.aligned spec (.ofList bodies) := by
  simp only [update, hbodies, takeOver_eq, hstale, Bool.false_eq_true, if_false]
  exact ⟨trivial, trivial⟩

/-- An update that cannot read a function does nothing and tells nothing. -/
theorem update_eq_of_unread {f : Failure} (hbodies : readFunctions e.names spec.functions.entries = .error f) :
    e.update spec = ⟨e, .error f, #[]⟩ := by
  simp only [update, hbodies]

theorem update_of_unread {f : Failure} (hbodies : readFunctions e.names spec.functions.entries = .error f) :
    (e.update spec).result = .error f ∧ (e.update spec).after = e := by
  rw [update_eq_of_unread hbodies]
  exact ⟨rfl, rfl⟩

/-- What is in force after a successful update. -/
theorem update_eq_ok (h : (e.update spec).result = .ok u) :
    ∃ bodies, readFunctions e.names spec.functions.entries = .ok bodies ∧
      ((e.isStale spec = true ∧ u = e.report spec true ∧
          (e.aligned spec (.ofList bodies)).replay.result = .ok () ∧
          (e.update spec).after = (e.aligned spec (.ofList bodies)).replay.after) ∨
        (e.isStale spec = false ∧ u = e.report spec false ∧
          (e.update spec).after = e.aligned spec (.ofList bodies))) := by
  cases hbodies : readFunctions e.names spec.functions.entries with
  | error f =>
    rw [(update_of_unread hbodies).1] at h
    cases h
  | ok bodies =>
    refine ⟨bodies, rfl, ?_⟩
    cases hstale : e.isStale spec with
    | false =>
      obtain ⟨hresult, hafter⟩ := update_of_not_stale hbodies hstale
      rw [hresult] at h
      exact .inr ⟨rfl, (Except.ok.inj h).symm, hafter⟩
    | true =>
      obtain ⟨hresult, hafter⟩ := update_of_stale hbodies hstale
      rw [hresult] at h
      obtain ⟨done, hdone, hu⟩ := map_eq_ok_iff.mp h
      exact .inl ⟨rfl, hu.symm, hdone, hafter⟩

/-- A replay changes states alone, so everything else is as the specification was taken over. -/
theorem exists_aligned_of_update (h : (e.update spec).result = .ok u) :
    ∃ bodies, readFunctions e.names spec.functions.entries = .ok bodies ∧ (e.update spec).after =
      { e.aligned spec (.ofList bodies) with aggregators := (e.update spec).after.aggregators } := by
  obtain ⟨bodies, hbodies, ⟨-, -, -, hafter⟩ | ⟨-, -, hafter⟩⟩ := update_eq_ok h
  · refine ⟨bodies, hbodies, ?_⟩
    rw [hafter]
    rfl
  · refine ⟨bodies, hbodies, ?_⟩
    rw [hafter]

/-- The body under the name is the first of the entries that is no expression, and this is why. -/
def FirstUnread (names : Vocabulary) (entries : List (String × Form)) (name : String)
    (error : FormError) : Prop :=
  ∃ before body rest, entries = before ++ (name, body) :: rest ∧
    (∀ p ∈ before, ∃ expr, p.2.toExpr names = .ok expr) ∧ body.toExpr names = .error error

theorem firstUnread_cons_of_error {names : Vocabulary} {entry : String × Form}
    {rest : List (String × Form)} {name : String} {error other : FormError}
    (h : entry.2.toExpr names = .error error) :
    FirstUnread names (entry :: rest) name other ↔ entry.1 = name ∧ error = other := by
  constructor
  · rintro ⟨before, body, behind, heq, hbefore, hbody⟩
    cases before with
    | nil =>
      cases heq
      exact ⟨rfl, Except.error.inj (h.symm.trans hbody)⟩
    | cons p before =>
      cases heq
      obtain ⟨expr, hexpr⟩ := hbefore entry List.mem_cons_self
      cases h.symm.trans hexpr
  · rintro ⟨rfl, rfl⟩
    exact ⟨[], entry.2, rest, rfl, by simp, h⟩

theorem firstUnread_cons_of_ok {names : Vocabulary} {entry : String × Form}
    {rest : List (String × Form)} {name : String} {error : FormError} {expr : Expr}
    (h : entry.2.toExpr names = .ok expr) :
    FirstUnread names (entry :: rest) name error ↔ FirstUnread names rest name error := by
  constructor
  · rintro ⟨before, body, behind, heq, hbefore, hbody⟩
    cases before with
    | nil =>
      cases heq
      cases h.symm.trans hbody
    | cons p before =>
      cases heq
      exact ⟨before, body, behind, rfl, fun q hq => hbefore q (List.mem_cons_of_mem _ hq), hbody⟩
  · rintro ⟨before, body, behind, rfl, hbefore, hbody⟩
    refine ⟨entry :: before, body, behind, rfl, ?_, hbody⟩
    intro p hp
    rcases List.mem_cons.mp hp with rfl | hmem
    · exact ⟨expr, h⟩
    · exact hbefore p hmem

theorem exists_firstUnread_iff {names : Vocabulary} {entries : List (String × Form)} :
    (∃ name error, FirstUnread names entries name error) ↔
      ∃ entry ∈ entries, ∃ error, entry.2.toExpr names = .error error := by
  constructor
  · rintro ⟨name, error, before, body, rest, rfl, -, hbody⟩
    exact ⟨(name, body), by simp, error, hbody⟩
  · rintro ⟨entry, hentry, error, herror⟩
    induction entries with
    | nil => cases hentry
    | cons first rest ih =>
      cases hfirst : first.2.toExpr names with
      | error e => exact ⟨first.1, e, (firstUnread_cons_of_error hfirst).mpr ⟨rfl, rfl⟩⟩
      | ok expr =>
        rcases List.mem_cons.mp hentry with rfl | hmem
        · cases hfirst.symm.trans herror
        · obtain ⟨name, e, hunread⟩ := ih hmem
          exact ⟨name, e, (firstUnread_cons_of_ok hfirst).mpr hunread⟩

/-- Reading functions fails on the first body that is no expression, and on nothing else. -/
theorem readFunctions_eq_error_iff {names : Vocabulary} {entries : List (String × Form)} {f : Failure} :
    readFunctions names entries = .error f ↔
      ∃ name error, FirstUnread names entries name error ∧ f = .form error (some name) := by
  induction entries with
  | nil =>
    constructor
    · intro h
      cases h
    · rintro ⟨name, error, ⟨before, body, rest, heq, -, -⟩, -⟩
      simp at heq
  | cons entry rest ih =>
    unfold readFunctions
    cases hbody : entry.2.toExpr names with
    | error error =>
      simp only [firstUnread_cons_of_error hbody]
      constructor
      · intro h
        cases h
        exact ⟨entry.1, error, ⟨rfl, rfl⟩, rfl⟩
      · rintro ⟨name, other, ⟨rfl, rfl⟩, rfl⟩
        rfl
    | ok expr =>
      simp only [firstUnread_cons_of_ok hbody]
      rw [← ih]
      cases readFunctions names rest with
      | error g => exact Iff.rfl
      | ok more =>
        constructor
        · intro h
          cases h
        · intro h
          cases h

theorem readFunctions_eq_error {names : Vocabulary} {entries : List (String × Form)} {f : Failure}
    (h : readFunctions names entries = .error f) : ∃ error name, f = .form error (some name) := by
  obtain ⟨name, error, -, rfl⟩ := readFunctions_eq_error_iff.mp h
  exact ⟨error, name, rfl⟩

/-- An update fails on a function that cannot be read, or else in the replay, with all in place but the states. -/
theorem failure_of_update {f : Failure} (h : (e.update spec).result = .error f) :
    readFunctions e.names spec.functions.entries = .error f ∨
      ∃ bodies, readFunctions e.names spec.functions.entries = .ok bodies ∧
        (e.aligned spec (.ofList bodies)).replay.result = .error f ∧
        (e.update spec).after = (e.aligned spec (.ofList bodies)).replay.after := by
  cases hbodies : readFunctions e.names spec.functions.entries with
  | error g =>
    rw [(update_of_unread hbodies).1] at h
    cases h
    exact .inl rfl
  | ok bodies =>
    refine .inr ⟨bodies, rfl, ?_⟩
    cases hstale : e.isStale spec with
    | false =>
      rw [(update_of_not_stale hbodies hstale).1] at h
      cases h
    | true =>
      obtain ⟨hresult, hafter⟩ := update_of_stale hbodies hstale
      refine ⟨?_, hafter⟩
      rw [hresult] at h
      cases hr : (e.aligned spec (.ofList bodies)).replay.result with
      | error g =>
        rw [hr] at h
        cases h
        rfl
      | ok done =>
        rw [hr] at h
        cases h

/-- An update in which an evaluation fails has everything in place but the states. -/
theorem update_eq_error {error : EvalError} (h : (e.update spec).result = .error (.evaluation error)) :
    ∃ bodies, readFunctions e.names spec.functions.entries = .ok bodies ∧
      (e.aligned spec (.ofList bodies)).replay.result = .error (.evaluation error) ∧
      (e.update spec).after = (e.aligned spec (.ofList bodies)).replay.after := by
  rcases failure_of_update h with hunread | hreplay
  · obtain ⟨formError, name, hform⟩ := readFunctions_eq_error hunread
    cases hform
  · exact hreplay

end EventFold.Engine
