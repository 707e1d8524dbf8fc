import EventFold.Proofs.Session.Application

/-!
# Calls of a session

Whatever a session is asked to do is a call with what it is given, among it what files hold or why they cannot be
read. A call can be refused, for a form, a text or a file that it cannot take. It is refused before it does
anything, so the session is left as it was. Evaluations and lines of a log fail on the way.
-/

namespace EventFold

/-- A failure on a form, a text or a file that cannot be taken, and not on the way through events or lines. -/
def Failure.isRefusal : Failure → Bool
  | form .. | snapshot .. | specification .. | file .. => true
  | evaluation _ | line .. => false

def Outcome.map {σ α β : Type} (f : α → β) (o : Outcome σ α) : Outcome σ β :=
  ⟨o.after, o.result.map f, o.notices⟩

theorem Outcome.result_map_eq_error_iff {σ α β : Type} {g : α → β} {o : Outcome σ α} {f : Failure} :
    (o.map g).result = .error f ↔ o.result = .error f := by
  unfold map
  cases o.result <;> simp [Except.map]

namespace Session

inductive Call where
  | load (path : String) (content : Except FileFault ByteArray)
  | apply (spec : Specification)
  | track (event : Event)
  | replay (path : String) (content : Except FileFault ByteArray)
  | evaluate (form : Form)
  | save (path : String) (place : Except FileFault Place)
  | restore (path : String) (content : Except FileFault ByteArray)

inductive Answer where
  | updated (update : Update)
  | tracked
  | counted (tally : Tally)
  | value (value : Value)
  /-- Where a snapshot is written, and its text. -/
  | saved (place : Place) (text : String)
  | restored (aggregators : Nat)

def perform (s : Session) : Call → Outcome Session Answer
  | .load path content => (s.load path content).map .updated
  | .apply spec => (s.apply spec).map .updated
  | .track event => (s.track event).map fun _ => .tracked
  | .replay path content => (s.replayFile path content).map .counted
  | .evaluate form => ⟨s, (s.evaluate form).map .value, #[]⟩
  | .save path place => (s.save path place).map fun saved => .saved saved.1 saved.2
  | .restore path content => (s.restore path content).map .restored

variable {s : Session} {spec : Specification} {event : Event} {path : String} {content : Except FileFault ByteArray}
  {f : Failure} {number : Nat}

section Failing

variable {p : Progress} {lines : List (List UInt8)}

theorem failure_of_apply (h : (s.apply spec).result = .error f) :
    (Engine.readFunctions s.engine.names spec.functions.entries = .error f ∧ (s.apply spec).after = s) ∨
      ∃ error, f = .evaluation error := by
  rcases Engine.failure_of_update h with hunread | ⟨bodies, -, hreplay, -⟩
  · refine .inl ⟨hunread, ?_⟩
    rw [apply, (Engine.update_of_unread hunread).2]
  · obtain ⟨error, -, rfl⟩ := Engine.result_eq_error_iff.mp hreplay
    exact .inr ⟨error, rfl⟩

theorem failure_of_load (h : (s.load path content).result = .error f) :
    (s.load path content).after = s ∨ ∃ error, f = .evaluation error := by
  unfold load at h ⊢
  cases hread : readSpecification path content with
  | error g => exact .inl rfl
  | ok spec =>
    rw [hread] at h
    exact (failure_of_apply h).imp_left And.right

theorem failure_of_track (h : (s.track event).result = .error f) : ∃ error, f = .evaluation error := by
  obtain ⟨error, -, rfl⟩ := Engine.result_eq_error_iff.mp h
  exact ⟨error, rfl⟩

theorem failure_of_takeLines (h : (p.takeLines number lines).result = .error f) :
    ∃ number fault, f = .line number fault := by
  induction lines generalizing p number with
  | nil => cases h
  | cons bytes rest ih =>
    cases hbytes : Text.ofBytes? bytes with
    | none =>
      simp only [Progress.takeLines, hbytes] at h
      cases h
      exact ⟨number, .notText, rfl⟩
    | some line =>
      simp only [Progress.takeLines, hbytes] at h
      exact ih h

/-- A log that can be opened fails on a line, if it does. -/
theorem failure_of_replayFile (h : (s.replayFile path content).result = .error f) :
    (s.replayFile path content).after = s ∨ ∃ number fault, f = .line number fault := by
  cases content with
  | ok bytes => exact .inr (failure_of_takeLines h)
  | error fault => cases fault <;> exact .inl rfl

/-- Nothing fails once the snapshot has been read. -/
theorem failure_of_restore (h : (s.restore path content).result = .error f) :
    (s.restore path content).after = s := by
  unfold restore at h ⊢
  split
  · rfl
  · rename_i hread
    rw [hread] at h
    cases h

theorem after_save {α : Type} (s : Session) (path : String) (place : Except FileFault α) :
    (s.save path place).after = s := by
  cases place <;> rfl

end Failing

section Refusals

/-- A specification is refused for its first function that cannot be read, whatever else it changes. -/
theorem apply_eq_form_error_iff {error : FormError} {function : Option String} :
    (s.apply spec).result = .error (.form error function) ↔
      ∃ name, Engine.FirstUnread s.engine.names spec.functions.entries name error ∧ function = some name := by
  constructor
  · intro h
    rcases failure_of_apply h with ⟨hunread, -⟩ | ⟨_, hother⟩
    · obtain ⟨name, e, hfirst, heq⟩ := Engine.readFunctions_eq_error_iff.mp hunread
      cases heq
      exact ⟨name, hfirst, rfl⟩
    · cases hother
  · rintro ⟨name, hfirst, rfl⟩
    exact (Engine.update_of_unread (Engine.readFunctions_eq_error_iff.mpr ⟨name, error, hfirst, rfl⟩)).1

theorem apply_refused_iff : (∃ error function, (s.apply spec).result = .error (.form error function)) ↔
    ∃ entry ∈ spec.functions.entries, ∃ error, entry.2.toExpr s.engine.names = .error error := by
  rw [← Engine.exists_firstUnread_iff]
  constructor
  · rintro ⟨error, function, h⟩
    obtain ⟨name, hfirst, -⟩ := apply_eq_form_error_iff.mp h
    exact ⟨name, error, hfirst⟩
  · rintro ⟨name, error, hfirst⟩
    exact ⟨error, some name, apply_eq_form_error_iff.mpr ⟨name, hfirst, rfl⟩⟩

theorem after_perform {call : Call} (h : (s.perform call).result = .error f) (hrefusal : f.isRefusal = true) :
    (s.perform call).after = s := by
  cases call with
  | load path content =>
    rcases failure_of_load (Outcome.result_map_eq_error_iff.mp h) with hafter | ⟨error, rfl⟩
    · exact hafter
    · cases hrefusal
  | apply spec =>
    rcases failure_of_apply (Outcome.result_map_eq_error_iff.mp h) with ⟨-, hafter⟩ | ⟨error, rfl⟩
    · exact hafter
    · cases hrefusal
  | track event =>
    obtain ⟨error, rfl⟩ := failure_of_track (Outcome.result_map_eq_error_iff.mp h)
    cases hrefusal
  | replay path content =>
    rcases failure_of_replayFile (Outcome.result_map_eq_error_iff.mp h) with hafter | ⟨number, fault, rfl⟩
    · exact hafter
    · cases hrefusal
  | evaluate form => rfl
  | save path place => exact s.after_save path place
  | restore path content => exact failure_of_restore (Outcome.result_map_eq_error_iff.mp h)

/-- A call that is refused leaves the session as it was. An application of a specification is refused exactly
if the body of a function cannot be read, for the first such body. -/
theorem after_refusal (s : Session) :
    (∀ call f, (s.perform call).result = .error f → f.isRefusal = true → (s.perform call).after = s) ∧
    ∀ spec : Specification,
      ((∃ error function, (s.apply spec).result = .error (.form error function)) ↔
        ∃ entry ∈ spec.functions.entries, ∃ error, entry.2.toExpr s.engine.names = .error error) ∧
      ∀ error function, (s.apply spec).result = .error (.form error function) →
        ∃ name, Engine.FirstUnread s.engine.names spec.functions.entries name error ∧ function = some name := by
  refine ⟨fun call f h hrefusal => after_perform h hrefusal, fun spec => ⟨apply_refused_iff, ?_⟩⟩
  intro error function h
  exact apply_eq_form_error_iff.mp h

/-- A session with an event and the states it led to. -/
def counting : Session := (sumsEarly.after.track (Event.empty.set "v" (.number 1))).after

/-- Other variables, no aggregators, and two functions that lack something. -/
def unreadable : Specification :=
  ((Specification.empty.withVariable "x" (.number 1)).withFunction "short"
    (.list [.atom (.text "+"), .atom (.number 1)])).withFunction "empty" (.list [])

theorem apply_counting_unreadable :
    (counting.apply unreadable).result = .error (.form (.arity "+" 2 1) (some "short")) := by
  decide +kernel

/-- A snapshot that breaks off. -/
def brokenOff : String := "\x7b\"n\": \x7b\"kind\": \"funnel\""

theorem restore_counting_brokenOff :
    (counting.restore "s.json" (.ok brokenOff.toUTF8)).result =
      .error (.snapshot .malformed brokenOff (some "s.json")) := by
  decide +kernel

theorem after_refusal_counting :
    (counting.engine.events.toList = [Event.empty.set "v" (.number 1)] ∧
      counting.engine.save.states.entries = [("n", .reached 1), ("sum", .selected (.number 2))]) ∧
    (counting.perform (.apply unreadable)).after = counting ∧
    (counting.perform (.restore "s.json" (.ok brokenOff.toUTF8))).after = counting ∧
    (counting.perform (.replay "log" (.error .missing))).after = counting ∧
    (∃ entry ∈ unreadable.functions.entries, ∃ error, entry.2.toExpr counting.engine.names = .error error) ∧
    ∃ name, Engine.FirstUnread counting.engine.names unreadable.functions.entries name (.arity "+" 2 1) ∧
      some "short" = some name := by
  obtain ⟨hafter, happly⟩ := after_refusal counting
  obtain ⟨hrefused, hfirst⟩ := happly unreadable
  exact ⟨by decide +kernel,
    hafter _ _ (Outcome.result_map_eq_error_iff.mpr apply_counting_unreadable) rfl,
    hafter _ _ (Outcome.result_map_eq_error_iff.mpr restore_counting_brokenOff) rfl,
    hafter _ (.file .missing "log") rfl rfl,
    hrefused.mp ⟨_, _, apply_counting_unreadable⟩, hfirst _ _ apply_counting_unreadable⟩

end Refusals

end Session

end EventFold
