import EventFold.Proofs.Form.Words
import EventFold.Proofs.Session.Replay

/-!
# The account of an event log

Of every log the lines before the first that is no text are taken in, all of them if the log is text throughout.
A session is led by the events in these lines, whatever becomes of them. Each line that is neither blank nor an
event that gets through is counted as an error and told of once, under its number.
-/

namespace EventFold

/-- An event that goes through aggregators makes them tell of refused moves, and of nothing else. -/
theorem Pass.notices_throughNames {told : Notice → Prop}
    (hrefused : ∀ name state value, told (.refusedMove name state value)) (scope : Scope) (names : List String)
    (p : Pass) (h : ∀ n ∈ p.notices.toList, told n) :
    ∀ n ∈ (throughNames scope names p).notices.toList, told n := by
  induction names generalizing p with
  | nil => exact h
  | cons name rest ih =>
    unfold throughNames
    split
    · exact ih p h
    · rename_i a _
      split
      · exact h
      · rename_i m _ _
        apply ih
        simp only [Array.toList_append, List.forall_mem_append]
        refine ⟨h, ?_⟩
        cases m <;> simp [notices?, hrefused]

namespace Session

/-- Sends events through the session one after the other, whatever becomes of them. -/
def trackAll (s : Session) (events : List Event) : Session :=
  events.foldl (fun s event => (s.track event).after) s

/-- The warning about a line, given the session that it finds, if there is to be one. -/
def lineNotice? (s : Session) (number : Nat) (line : List UInt8) : Option Notice :=
  match readLine? line with
  | none => none
  | some (.error fault) => some (.skippedLine number fault)
  | some (.ok event) =>
    match (s.track event).result with
    | .ok () => none
    | .error f => some (.failedLine number f)

/-- The warnings about lines of which the first has the given number. Each line finds the session that the events
in the lines before it lead to. -/
def lineNotices (s : Session) (number : Nat) (lines : List (List UInt8)) : List Notice :=
  lines.zipIdx.filterMap fun indexed =>
    (s.trackAll (eventsIn (lines.take indexed.2))).lineNotice? (number + indexed.2) indexed.1

theorem trackAll_eq (s : Session) (events : List Event) :
    s.trackAll events = { s with engine := s.engine.trackAll events } := by
  induction events generalizing s with
  | nil => rfl
  | cons event rest ih => exact ih (s.track event).after

theorem trackAll_append (s : Session) (events further : List Event) :
    s.trackAll (events ++ further) = (s.trackAll events).trackAll further :=
  List.foldl_append

/-- A line is told of before those behind it, which find what it leaves. -/
theorem lineNotices_cons (s : Session) (number : Nat) (line : List UInt8) (rest : List (List UInt8)) :
    s.lineNotices number (line :: rest) = (s.lineNotice? number line).toList ++
      (s.trackAll (eventsIn [line])).lineNotices (number + 1) rest := by
  -- a line behind has an index less by one in the rest, which begins one line later
  have hbehind (indexed : List UInt8 × Nat) :
      (s.trackAll (eventsIn ((line :: rest).take (indexed.2 + 1)))).lineNotice?
          (number + (indexed.2 + 1)) indexed.1 =
        ((s.trackAll (eventsIn [line])).trackAll (eventsIn (rest.take indexed.2))).lineNotice?
          (number + 1 + indexed.2) indexed.1 := by
    rw [List.take_succ_cons, eventsIn_cons line, trackAll_append, Nat.add_right_comm, Nat.add_assoc]
  have hrest : (rest.zipIdx 1).filterMap (fun indexed =>
        (s.trackAll (eventsIn ((line :: rest).take indexed.2))).lineNotice? (number + indexed.2) indexed.1) =
      (s.trackAll (eventsIn [line])).lineNotices (number + 1) rest := by
    rw [List.zipIdx_succ, List.filterMap_map]
    exact congrArg (List.filterMap · rest.zipIdx) (funext hbehind)
  cases hfirst : s.lineNotice? number line with
  | none =>
    rw [lineNotices, List.zipIdx_cons, List.filterMap_cons_none]
    · exact hrest
    · exact hfirst
  | some n =>
    rw [lineNotices, List.zipIdx_cons, List.filterMap_cons_some]
    · exact congrArg (n :: ·) hrest
    · exact hfirst

theorem length_lineNotice? (s : Session) (number : Nat) (line : List UInt8) :
    (s.lineNotice? number line).toList.length =
      faultsIn [line] + (s.engine.failures (eventsIn [line])).length := by
  have hresult (event : Event) : (s.track event).result = (s.engine.track event).result := rfl
  simp only [lineNotice?, faultsIn, eventsIn, List.filterMap_cons, List.countP_cons]
  cases hread : readLine? line with
  | none => rfl
  | some held =>
    cases held with
    | error fault => rfl
    | ok event =>
      simp only [Option.bind_some, Except.toOption, List.filterMap_nil, Engine.failures, hresult]
      cases (s.engine.track event).result <;> rfl

/-- There is one warning for each line that holds no event and for each event that fails. -/
theorem length_lineNotices (s : Session) (number : Nat) (lines : List (List UInt8)) :
    (s.lineNotices number lines).length = faultsIn lines + (s.engine.failures (eventsIn lines)).length := by
  induction lines generalizing s number with
  | nil => rfl
  | cons line rest ih =>
    rw [lineNotices_cons, List.length_append, length_lineNotice?, ih, eventsIn_cons line rest,
      faultsIn_cons line rest, Engine.failures_append, List.length_append, trackAll_eq]
    dsimp only
    omega

theorem session_afterLine (p : Progress) (number : Nat) (bytes : List UInt8) :
    (p.afterLine number bytes).session = p.session.trackAll (eventsIn [bytes]) := by
  rw [trackAll_eq, (advances_afterLine p number bytes).1]

theorem after_replay (s : Session) (content : ByteArray) : (s.replay content).after =
    s.trackAll (eventsIn (textLines (Text.lines content.toList))) := by
  rw [replay_eq_through, trackAll_eq]
  split <;> exact (advances_through s.begun 1 _).1

end Session

namespace Notice

def lineMessages : List String := ["skipping malformed event", "event evaluation failed"]

theorem append_not_mem_lineMessages (beginning : String)
    (h : ∀ message ∈ lineMessages, Text.dropBeginning? beginning message = none) (rest : String) :
    beginning ++ rest ∉ lineMessages := by
  intro hmem
  exact Text.dropBeginning?_eq_none_iff.mp (h _ hmem) rest rfl

end Notice

variable [Wording]

namespace Notice

/-- Whether a notice is a warning about a line of an event log, judged by its record. -/
def isLineWarning (n : Notice) : Bool := n.record.level == .warn && lineMessages.contains n.record.message

/-- The line that the record of a notice names. -/
def line? (n : Notice) : Option Nat :=
  match n.record.fields.lookup "line" with
  | some (.count number) => some number
  | _ => none

/-- The messages about lines are those of two notices, whatever names stand in the messages of others. -/
theorem isLineWarning_iff {n : Notice} : n.isLineWarning = true ↔
    (∃ number fault, n = .skippedLine number fault) ∨ ∃ number failure, n = .failedLine number failure := by
  -- the messages that hold names are told apart by how they begin
  have hdropping := append_not_mem_lineMessages "dropping aggregator " (by decide)
  have hrefused := append_not_mem_lineMessages "aggregator " (by decide)
  have hforeign := append_not_mem_lineMessages "snapshot holds a " (by decide)
  cases n with
  | dropping => simp [isLineWarning, record, engineRecord, String.append_assoc, hdropping]
  | refusedMove => simp [isLineWarning, record, engineRecord, String.append_assoc, hrefused]
  | foreignState => simp [isLineWarning, record, engineRecord, String.append_assoc, hforeign]
  | _ => simp [isLineWarning, lineMessages, record, engineRecord, sessionRecord]

end Notice

/-- The warnings about lines among some notices. -/
def lineWarnings (notices : Array Notice) : List Notice := notices.toList.filter Notice.isLineWarning

theorem lineWarnings_append (told more : Array Notice) :
    lineWarnings (told ++ more) = lineWarnings told ++ lineWarnings more := by
  rw [lineWarnings, Array.toList_append, List.filter_append]
  rfl

theorem lineWarnings_push_of_isLineWarning {told : Array Notice} {n : Notice} (h : n.isLineWarning = true) :
    lineWarnings (told.push n) = lineWarnings told ++ [n] := by
  rw [lineWarnings, Array.toList_push, List.filter_append, List.filter_cons_of_pos h]
  rfl

theorem lineWarnings_push_of_not_isLineWarning {told : Array Notice} {n : Notice} (h : ¬ n.isLineWarning = true) :
    lineWarnings (told.push n) = lineWarnings told := by
  rw [lineWarnings, Array.toList_push, List.filter_append, List.filter_cons_of_neg h]
  exact List.append_nil _

theorem lineWarnings_eq_nil {told : Array Notice} (h : ∀ n ∈ told.toList, ¬ n.isLineWarning = true) :
    lineWarnings told = [] :=
  List.filter_eq_nil_iff.mpr h

namespace Session

variable {s : Session} {number : Nat} {bytes : List UInt8}

theorem lineWarnings_track (s : Session) (event : Event) : lineWarnings (s.track event).notices = [] := by
  apply lineWarnings_eq_nil
  simp only [track, Array.toList_append, List.forall_mem_append]
  refine ⟨⟨?_, ?_⟩, ?_⟩
  · intro n hn
    unfold catalogNotices at hn
    split at hn
    · cases hn
    · rcases List.mem_append.mp hn with hkind | hmistyped
      · split at hkind
        · split at hkind
          · cases hkind
          · simp [List.mem_singleton.mp hkind, Notice.isLineWarning_iff]
        · simp [List.mem_singleton.mp hkind, Notice.isLineWarning_iff]
      · obtain ⟨property, -, rfl⟩ := List.mem_map.mp hmistyped
        simp [Notice.isLineWarning_iff]
  · simp [Notice.isLineWarning_iff]
  · exact Pass.notices_throughNames (by simp [Notice.isLineWarning_iff]) _ _ _ (by simp [Engine.begin])

theorem line?_of_lineNotice? {n : Notice} (h : s.lineNotice? number bytes = some n) : n.line? = some number := by
  unfold lineNotice? at h
  split at h
  · cases h
  · cases h
    rfl
  · split at h
    · cases h
    · cases h
      rfl

theorem line?_lineNotices (s : Session) (number : Nat) (lines : List (List UInt8)) : ∃ numbers : List Nat,
    (s.lineNotices number lines).map Notice.line? = numbers.map some ∧ numbers.Pairwise (· < ·) ∧
      ∀ k ∈ numbers, number ≤ k := by
  induction lines generalizing s number with
  | nil => exact ⟨[], rfl, .nil, by simp⟩
  | cons line rest ih =>
    obtain ⟨numbers, hnumbers, hincreasing, hbehind⟩ := ih (s.trackAll (eventsIn [line])) (number + 1)
    rw [lineNotices_cons]
    cases hfirst : s.lineNotice? number line with
    | none => exact ⟨numbers, hnumbers, hincreasing, fun k hk => Nat.le_of_succ_le (hbehind k hk)⟩
    | some n =>
      refine ⟨number :: numbers, ?_, List.pairwise_cons.mpr ⟨hbehind, hincreasing⟩, ?_⟩
      · rw [Option.toList_some, List.singleton_append, List.map_cons, List.map_cons, hnumbers,
          line?_of_lineNotice? hfirst]
      · exact List.forall_mem_cons.mpr ⟨Nat.le_refl number, fun k hk => Nat.le_of_succ_le (hbehind k hk)⟩

theorem lineWarnings_blame (p : Progress) {n : Notice} (h : n.isLineWarning = true) :
    lineWarnings (p.blame n).notices = lineWarnings p.notices ++ [n] :=
  lineWarnings_push_of_isLineWarning h

/-- What one line is told of. -/
theorem lineWarnings_afterLine (p : Progress) (number : Nat) (bytes : List UInt8) :
    lineWarnings (p.afterLine number bytes).notices =
      lineWarnings p.notices ++ (p.session.lineNotice? number bytes).toList := by
  unfold Progress.afterLine lineNotice?
  cases readLine? bytes with
  | none => exact (List.append_nil _).symm
  | some held =>
    cases held with
    | error fault => exact lineWarnings_blame p (Notice.isLineWarning_iff.mpr (.inl ⟨number, fault, rfl⟩))
    | ok event =>
      have htold : lineWarnings (p.notices ++ (p.session.track event).notices) = lineWarnings p.notices := by
        rw [lineWarnings_append, lineWarnings_track, List.append_nil]
      simp only [Progress.afterEvent]
      cases (p.session.track event).result with
      | ok done => exact htold.trans (List.append_nil _).symm
      | error f =>
        refine (lineWarnings_blame _ (Notice.isLineWarning_iff.mpr (.inr ⟨number, f, rfl⟩))).trans ?_
        rw [htold]
        rfl

/-- By induction on the lines; each finds the session that those before have led to. -/
theorem lineWarnings_through (p : Progress) (number : Nat) (lines : List (List UInt8)) :
    lineWarnings (p.through number lines).notices =
      lineWarnings p.notices ++ p.session.lineNotices number lines := by
  induction lines generalizing p number with
  | nil => exact (List.append_nil _).symm
  | cons bytes rest ih =>
    rw [Progress.through, ih, lineWarnings_afterLine, session_afterLine, lineNotices_cons, List.append_assoc]

theorem lineWarnings_replay (s : Session) (content : ByteArray) : lineWarnings (s.replay content).notices =
    s.lineNotices 1 (textLines (Text.lines content.toList)) := by
  have hthrough := lineWarnings_through s.begun 1 (textLines (Text.lines content.toList))
  rw [replay_eq_through]
  split
  · exact (lineWarnings_push_of_not_isLineWarning (by simp [Notice.isLineWarning_iff])).trans hthrough
  · exact hthrough

/-- A log leads a session as the events in it do. Each of its errors is told of once, with the number of its line,
and the first line that is no text ends it. -/
theorem replay_accounts (s : Session) (content : ByteArray) :
    let lines := textLines (Text.lines content.toList)
    let events := eventsIn lines
    let o := s.replay content
    let warnings := lineWarnings o.notices
    o.after = s.trackAll events ∧
      o.after.engine.events = s.engine.events ++ events.toArray ∧
      warnings = s.lineNotices 1 lines ∧
      (∃ numbers : List Nat, warnings.map Notice.line? = numbers.map some ∧ numbers.Pairwise (· < ·)) ∧
      warnings.length = faultsIn lines + (s.engine.failures events).length ∧
      o.result = if IsText content then .ok ⟨events.length, warnings.length⟩
        else .error (.line (lines.length + 1) .notText) := by
  intro lines events o warnings
  have hafter : o.after = s.trackAll events := s.after_replay content
  have hwarnings : warnings = s.lineNotices 1 lines := s.lineWarnings_replay content
  have hlength : warnings.length = faultsIn lines + (s.engine.failures events).length := by
    rw [hwarnings, length_lineNotices]
  obtain ⟨numbers, hnumbers, hincreasing, -⟩ := s.line?_lineNotices 1 lines
  refine ⟨hafter, ?_, hwarnings, ⟨numbers, hwarnings ▸ hnumbers, hincreasing⟩, hlength, ?_⟩
  · rw [hafter, trackAll_eq, Engine.trackAll_eq]
  · have htally := s.tally_through 1 lines
    rw [hlength, Nat.add_comm lines.length, ← htally]
    refine (congrArg Outcome.result (s.replay_eq_through content)).trans ?_
    split <;> rfl

/-- A blank line, an array, an event, a byte that is no text and a line behind it. -/
example :
    let o := (Session.new .default).replay ⟨#[10, 91, 93, 10, 123, 125, 10, 255, 10, 93]⟩
    lineWarnings o.notices = [.skippedLine 2 .notObject] ∧ o.after.engine.events.size = 1 ∧
      o.result = .error (.line 4 .notText) := by
  intro o
  exact ⟨(lineWarnings_replay _ _).trans (by decide +kernel), by decide +kernel, by decide +kernel⟩

end Session

end EventFold
