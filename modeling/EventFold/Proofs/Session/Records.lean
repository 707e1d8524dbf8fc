import EventFold.Proofs.Engine.Callees
import EventFold.Proofs.Notices
import EventFold.Proofs.Session.Catalogs
import EventFold.Proofs.Session.Lines

/-!
# What a session tells

All that is told in a run has its names from the calls: those of aggregators and of the functions that are called
from the specifications that the calls give, those of files from the calls themselves. A record of the run is one
line of a plain log exactly if the names that it shows as they are hold no line break. So a specification can break
a line, while events, snapshots and logs of events cannot.
-/

namespace EventFold

open Text

variable {w : Sources} {told more : Array Notice} {n : Notice}

/-- All notices have their names from the sources. -/
def AllWithin (w : Sources) (told : Array Notice) : Prop := ∀ n ∈ told.toList, n.Within w

theorem allWithin_empty (w : Sources) : AllWithin w #[] := nofun

theorem AllWithin.append (h : AllWithin w told) (hmore : AllWithin w more) : AllWithin w (told ++ more) := by
  rw [AllWithin, Array.toList_append, List.forall_mem_append]
  exact ⟨h, hmore⟩

theorem AllWithin.push (h : AllWithin w told) (hn : n.Within w) : AllWithin w (told.push n) := by
  rw [AllWithin, Array.toList_push, List.forall_mem_append, List.forall_mem_singleton]
  exact ⟨h, hn⟩

namespace Reconciliation

variable {names : Vocabulary} {r : Reconciliation} {registry : Table Aggregator} {entries : Table Form}

theorem allWithin_takeOver (h : AllWithin w r.notices) {entry : String × Form} (hname : w.aggregator entry.1) :
    AllWithin w (takeOver names r entry).notices := by
  rw [takeOver_eq]
  cases hv : verdict names r.registry entry with
  | kept => exact h
  | read a => exact h.push trivial
  | refused error =>
    have hread := (verdict_eq_refused_iff.mp hv).2
    exact h.push ⟨hname, names, entry.2, map_eq_error_iff.mp hread⟩

theorem allWithin_run (hentries : ∀ name ∈ entries.keys, w.aggregator name) :
    AllWithin w (run names registry entries).notices := by
  have htaken : ∀ (l : List (String × Form)) (r : Reconciliation), (∀ entry ∈ l, w.aggregator entry.1) →
      AllWithin w r.notices → AllWithin w (l.foldl (takeOver names) r).notices := by
    intro l
    induction l with
    | nil => exact fun r _ h => h
    | cons entry rest ih =>
      intro r hl h
      rw [List.forall_mem_cons] at hl
      exact ih _ hl.2 (allWithin_takeOver h hl.1)
  have hremoved : ∀ (stale : List String) (r : Reconciliation), AllWithin w r.notices →
      AllWithin w (stale.foldl remove r).notices := by
    intro stale
    induction stale with
    | nil => exact fun r h => h
    | cons name rest ih => exact fun r h => ih _ (h.push trivial)
  exact hremoved _ _ (htaken entries.entries _ (fun entry hentry => hentries _ (List.mem_map_of_mem hentry))
    (allWithin_empty w))

theorem of_mem_rejected {name : String} {error : FormError} (h : (name, error) ∈ (run names registry entries).rejected) :
    ∃ form, entries.get? name = some form ∧ form.toRule names = .error error := by
  rw [run_rejected] at h
  obtain ⟨⟨other, v⟩, hj, hp⟩ := List.mem_filterMap.mp h
  obtain ⟨form, hform, hv⟩ := mem_judged_iff.mp hj
  obtain ⟨e, he, heq⟩ := Option.map_eq_some_iff.mp hp
  cases heq
  cases v with
  | refused e' =>
    cases he
    exact ⟨form, hform, map_eq_error_iff.mp (verdict_eq_refused_iff.mp hv).2⟩
  | _ => cases he

end Reconciliation

namespace Engine

variable {e : Engine} {spec : Specification}

theorem allWithin_track (e : Engine) (event : Event) : AllWithin w (e.track event).notices :=
  Pass.notices_throughNames (fun _ _ _ => trivial) _ _ _ nofun

theorem allWithin_passEvents {events : List Event} {p : Pass} (h : AllWithin w p.notices) :
    AllWithin w (e.passEvents events p).notices := by
  induction events generalizing p with
  | nil => exact h
  | cons event rest ih =>
    have hpass : AllWithin w (e.passEvent event { p with stack := .empty e.limit }).notices :=
      Pass.notices_throughNames (fun _ _ _ => trivial) _ _ _ h
    simp only [passEvents]
    split
    · exact hpass
    · exact ih hpass

theorem allWithin_replay (e : Engine) : AllWithin w e.replay.notices := by
  simp only [replay]
  refine (allWithin_passEvents (allWithin_empty w)).append ?_
  split
  · exact (allWithin_empty w).push trivial
  · exact allWithin_empty w

theorem allWithin_update (hspec : ∀ name ∈ spec.aggregators.keys, w.aggregator name) :
    AllWithin w (e.update spec).notices := by
  have hrun : AllWithin w (Reconciliation.run e.names e.aggregators spec.aggregators).notices :=
    Reconciliation.allWithin_run hspec
  unfold update
  split
  · exact allWithin_empty w
  · rw [takeOver_eq]
    split
    · exact hrun.append (allWithin_replay _)
    · exact hrun.push trivial

theorem allWithin_restore (e : Engine) (s : Snapshot) : AllWithin w (e.restore s).notices := by
  intro n hn
  obtain ⟨⟨name, a⟩, -, htold⟩ := List.mem_filterMap.mp hn
  simp only [restoreNotice?] at htold
  split at htold
  · split at htold
    · cases htold
    · cases htold
      trivial
  · cases htold

end Engine

namespace Session

/-- The specification that a call gives, if it can be read. -/
def Call.specification? : Call → Option Specification
  | load path content => (readSpecification path content).toOption
  | apply spec => some spec
  | _ => none

def Call.snapshotFile? : Call → Option String
  | save path _ => some path
  | restore path _ => some path
  | _ => none

/-- What a call gives to tell of is from the sources. -/
structure Call.Within (names : Vocabulary) (w : Sources) (call : Call) : Prop where
  aggregators : ∀ spec, call.specification? = some spec → ∀ name ∈ spec.aggregators.keys, w.aggregator name
  functions : ∀ spec, call.specification? = some spec → ∀ function, spec.Calls names function → w.function function
  files : ∀ path, call.snapshotFile? = some path → w.file path

/-- Forms are read under these names, and the functions that the engine calls are from the sources. -/
structure Within (names : Vocabulary) (w : Sources) (s : Session) : Prop where
  names_eq : s.engine.names = names
  calls : s.engine.CallsOnly w.function

variable {names : Vocabulary} {s : Session} {spec : Specification} {event : Event} {p : Progress}

theorem Within.of_sameBasis (h : s.Within names w) {e : Engine} (he : e.SameBasis s.engine) :
    Within names w { s with engine := e } :=
  ⟨he.names.trans h.names_eq, he.callsOnly h.calls⟩

theorem allWithin_apply (hspec : ∀ name ∈ spec.aggregators.keys, w.aggregator name) :
    AllWithin w (s.apply spec).notices := by
  refine (Engine.allWithin_update hspec).append ?_
  cases hresult : (s.engine.update spec).result with
  | error f => exact allWithin_empty w
  | ok u =>
    refine AllWithin.push ?_ trivial
    intro n hn
    obtain ⟨⟨name, error⟩, hrejected, rfl⟩ := List.mem_map.mp hn
    rw [Engine.report_of_update hresult] at hrejected
    obtain ⟨form, hform, herror⟩ := Reconciliation.of_mem_rejected hrejected
    have hname : name ∈ spec.aggregators.keys := Table.get?_isSome_iff.mp (Option.isSome_of_eq_some hform)
    exact ⟨hspec name hname, _, form, herror⟩

theorem Within.apply (h : s.Within names w)
    (hspec : ∀ function, spec.Calls names function → w.function function) : (s.apply spec).after.Within names w where
  names_eq := (s.engine.names_update spec).trans h.names_eq
  calls := h.calls.update (by rw [h.names_eq]; exact hspec)

theorem allWithin_track (s : Session) (event : Event) : AllWithin w (s.track event).notices := by
  refine AllWithin.append ?_ (s.engine.allWithin_track event)
  intro n hn
  rcases List.mem_append.mp hn with hcatalog | htracking
  · have hwarning := isCatalogWarning_of_mem_catalogNotices hcatalog
    cases n <;> trivial
  · rw [List.mem_singleton.mp htracking]
    trivial

theorem Within.track (h : s.Within names w) (event : Event) : (s.track event).after.Within names w :=
  h.of_sameBasis (s.engine.track_sameBasis event)

section Lines

/-- What one line leaves and tells. -/
theorem Within.afterLine (h : p.session.Within names w) (htold : AllWithin w p.notices) (number : Nat)
    (bytes : List UInt8) :
    (p.afterLine number bytes).session.Within names w ∧ AllWithin w (p.afterLine number bytes).notices := by
  unfold Progress.afterLine
  split
  · exact ⟨h, htold⟩
  · exact ⟨h, htold.push trivial⟩
  · rename_i event _
    have htracked := htold.append (p.session.allWithin_track event)
    simp only [Progress.afterEvent]
    cases hresult : (p.session.track event).result with
    | ok done => exact ⟨h.track event, htracked⟩
    | error f =>
      have hfailed : (Notice.failedLine number f).Within w := h.calls.of_track_eq_error hresult
      exact ⟨h.track event, htracked.push hfailed⟩

theorem Within.through (h : p.session.Within names w) (htold : AllWithin w p.notices) (number : Nat)
    (lines : List (List UInt8)) :
    (p.through number lines).session.Within names w ∧ AllWithin w (p.through number lines).notices := by
  induction lines generalizing p number with
  | nil => exact ⟨h, htold⟩
  | cons bytes rest ih =>
    obtain ⟨hafter, hmore⟩ := h.afterLine htold number bytes
    exact ih hafter hmore (number + 1)

theorem Within.replayFile (h : s.Within names w) (path : String) (content : Except FileFault ByteArray) :
    (s.replayFile path content).after.Within names w ∧ AllWithin w (s.replayFile path content).notices := by
  cases content with
  | error fault => cases fault <;> exact ⟨h, allWithin_empty w⟩
  | ok bytes =>
    obtain ⟨hafter, htold⟩ :=
      Within.through (p := s.begun) h (allWithin_empty w) 1 (textLines (Text.lines bytes.toList))
    rw [Session.replayFile, replay_eq_through]
    dsimp only
    split
    · exact ⟨hafter, htold.push trivial⟩
    · exact ⟨hafter, htold⟩

end Lines

section Runs

/-- What one call leaves and tells. -/
theorem Within.perform (h : s.Within names w) {call : Call} (hcall : call.Within names w) :
    (s.perform call).after.Within names w ∧ AllWithin w (s.perform call).notices := by
  cases call with
  | load path content =>
    simp only [Session.perform, Outcome.map, load]
    cases hread : readSpecification path content with
    | error f => exact ⟨h, allWithin_empty w⟩
    | ok spec =>
      have hspec : (Call.load path content).specification? = some spec := by
        rw [Call.specification?, hread]
        rfl
      exact ⟨h.apply (hcall.functions spec hspec), allWithin_apply (hcall.aggregators spec hspec)⟩
  | apply spec => exact ⟨h.apply (hcall.functions spec rfl), allWithin_apply (hcall.aggregators spec rfl)⟩
  | track event => exact ⟨h.track event, s.allWithin_track event⟩
  | replay path content => exact h.replayFile path content
  | evaluate form => exact ⟨h, allWithin_empty w⟩
  | save path place =>
    cases place with
    | error fault => exact ⟨h, allWithin_empty w⟩
    | ok place => exact ⟨h, (allWithin_empty w).push (hcall.files path rfl)⟩
  | restore path content =>
    simp only [Session.perform, Outcome.map, restore]
    split
    · exact ⟨h, allWithin_empty w⟩
    · rename_i snapshot _
      refine ⟨h.of_sameBasis (s.engine.restore_sameBasis snapshot), ?_⟩
      exact (s.engine.allWithin_restore snapshot).append ((allWithin_empty w).push (hcall.files path rfl))

/-- What a whole run tells. By induction on the calls. -/
theorem Within.outcomes (h : s.Within names w) {calls : List Call} (hcalls : ∀ call ∈ calls, call.Within names w) :
    ∀ o ∈ s.outcomes calls, AllWithin w o.notices := by
  induction calls generalizing s with
  | nil => nofun
  | cons call rest ih =>
    rw [List.forall_mem_cons] at hcalls
    obtain ⟨hafter, htold⟩ := h.perform hcalls.1
    exact List.forall_mem_cons.mpr ⟨htold, ih hafter hcalls.2⟩

/-- The names that calls give to tell of. -/
def sources (names : Vocabulary) (calls : List Call) : Sources where
  aggregator name := ∃ call ∈ calls, ∃ spec, call.specification? = some spec ∧ name ∈ spec.aggregators.keys
  function name := ∃ call ∈ calls, ∃ spec, call.specification? = some spec ∧ spec.Calls names name
  file path := ∃ call ∈ calls, call.snapshotFile? = some path

theorem within_sources (names : Vocabulary) {calls : List Call} {call : Call} (h : call ∈ calls) :
    call.Within names (sources names calls) where
  aggregators spec hspec _ hname := ⟨call, h, spec, hspec, hname⟩
  functions spec hspec _ hfunction := ⟨call, h, spec, hspec, hfunction⟩
  files _ hpath := ⟨call, h, hpath⟩

theorem within_new (c : Config) (w : Sources) : (new c).Within c.catalog.vocabulary w where
  names_eq := rfl
  calls := Engine.callsOnly_new _ _ _

/-- Each record of a run is one line exactly if the names that it shows as they are hold no line break. They are
names of aggregators, and of functions that are called, in the specifications that the calls give. -/
theorem records_on_one_line [Wording] (c : Config) (calls : List Call)
    (hwords : ∀ text, IsOneLine (Wording.line text))
    (hfiles : ∀ call ∈ calls, ∀ path, call.snapshotFile? = some path → IsOneLine path) :
    ∀ o ∈ (new c).outcomes calls, ∀ n ∈ o.notices.toList,
      (∀ (coloured : Bool) (time : String), IsOneLine time →
        (IsLine (n.record.plainLine coloured time) ↔ ∀ name ∈ n.bareNames, IsOneLine name)) ∧
      ∀ name ∈ n.bareNames, ∃ call ∈ calls, ∃ spec, call.specification? = some spec ∧
        (name ∈ spec.aggregators.keys ∨ spec.Calls c.catalog.vocabulary name) := by
  intro o ho n hn
  have hwithin : n.Within (sources c.catalog.vocabulary calls) :=
    (within_new c _).outcomes (fun call hcall => within_sources _ hcall) o ho n hn
  constructor
  · intro coloured time htime
    refine hwithin.isLine_iff hwords ?_ htime
    rintro path ⟨call, hcall, hpath⟩
    exact hfiles call hcall path hpath
  · intro name hname
    rcases hwithin.of_mem_bareNames name hname with ⟨call, hcall, spec, hspec, hkey⟩ | ⟨call, hcall, spec, hspec, hcalls⟩
    · exact ⟨call, hcall, spec, hspec, .inl hkey⟩
    · exact ⟨call, hcall, spec, hspec, .inr hcalls⟩

/-- A function that calls itself and an aggregator without a step, with line breaks in their names. -/
def brokenNames : Specification :=
  let call : Form := .list [.atom (.text "func.f\ng")]
  ((Specification.empty.withFunction "f\ng" call).withAggregator "n" (.list [.atom (.text "funnel"), call])).withAggregator
    "a\nb" (.list [.atom (.text "funnel")])

/-- The second line of the log is an event. The first is no JSON from its first character on. -/
def brokenCalls : List Call :=
  [.apply brokenNames, .replay "log" (.ok "oops\n\x7b\x7d".toUTF8), .save "states.json" (.ok ["states.json"])]

/-- What is said of a text whose first character begins nothing. Other texts are not read by the calls. -/
abbrev noValue : Wording where
  line _ := "expected value at line 1 column 1"
  specification _ := "expected value at line 1 column 1"
  snapshot _ := "expected value at line 1 column 1"
  config := ""
  directives _ := ""
  tornDirective := ""
  unopenedLog := ""
  misuse _ := ""

/-- One rejected aggregator is told of twice: its name is quoted the first time and breaks the line the second. -/
theorem records_on_one_line_brokenNames :
    let told := (new { Config.default with maxCallDepth := 2 }).outcomes brokenCalls
    let line (n : Notice) (coloured : Bool) := (@Notice.record noValue n).plainLine coloured "12:00"
    let dropped := Notice.dropping "a\nb" (.arity "funnel" 1 0)
    let rejected := Notice.rejected "a\nb" (.arity "funnel" 1 0)
    let skipped := Notice.skippedLine 1 (.json "oops")
    let failed := Notice.failedLine 2 (.evaluation (.callDepthExceeded "f\ng" 2))
    (∀ text, IsOneLine (noValue.line text)) ∧
    (∀ call ∈ brokenCalls, ∀ path, call.snapshotFile? = some path → IsOneLine path) ∧
    ((∃ o ∈ told, dropped ∈ o.notices.toList) ∧ IsLine (line dropped true)) ∧
    ((∃ o ∈ told, rejected ∈ o.notices.toList) ∧ ¬ IsLine (line rejected true)) ∧
    ((∃ o ∈ told, skipped ∈ o.notices.toList) ∧ IsLine (line skipped false)) ∧
    ((∃ o ∈ told, failed ∈ o.notices.toList) ∧ ¬ IsLine (line failed false)) := by
  intro told line dropped rejected skipped failed
  have hwords : ∀ text, IsOneLine (noValue.line text) := fun _ => isOneLine_ofList.mpr (by decide)
  have hfiles : ∀ call ∈ brokenCalls, ∀ path, call.snapshotFile? = some path → IsOneLine path := by
    simp only [brokenCalls, List.forall_mem_cons]
    refine ⟨nofun, nofun, ?_, List.forall_mem_nil _⟩
    rintro path ⟨⟩
    decide
  have hline (n : Notice) (hn : ∃ o ∈ told, n ∈ o.notices.toList) (coloured : Bool) :
      IsLine (line n coloured) ↔ ∀ name ∈ n.bareNames, IsOneLine name := by
    obtain ⟨o, ho, hmem⟩ := hn
    exact (@records_on_one_line noValue _ brokenCalls hwords hfiles o ho n hmem).1 coloured "12:00" (by decide)
  have hdropped : ∃ o ∈ told, dropped ∈ o.notices.toList := by decide +kernel
  have hrejected : ∃ o ∈ told, rejected ∈ o.notices.toList := by decide +kernel
  have hskipped : ∃ o ∈ told, skipped ∈ o.notices.toList := by decide +kernel
  have hfailed : ∃ o ∈ told, failed ∈ o.notices.toList := by decide +kernel
  refine ⟨hwords, hfiles, ⟨hdropped, ?_⟩, ⟨hrejected, ?_⟩, ⟨hskipped, ?_⟩, ⟨hfailed, ?_⟩⟩
  · rw [hline _ hdropped]
    decide
  · rw [hline _ hrejected]
    decide
  · rw [hline _ hskipped]
    decide
  · rw [hline _ hfailed]
    decide

end Runs

end Session

end EventFold
