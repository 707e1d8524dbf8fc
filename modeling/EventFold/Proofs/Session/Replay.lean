import EventFold.Proofs.Engine.Tracking
import EventFold.Session

/-!
# Event logs of sessions

To a session an event log is the row of its events and the number of its lines that hold none. It sends the
events through the engine one after the other, whatever becomes of them, and counts the failures. Only a line
that is no text stops it.

A log that is empty or ends its last line can be continued: the lines of both together are those of the one and
then those of the other.
-/

namespace EventFold

namespace Text

theorem toList_loop (bytes : ByteArray) (i : Nat) (before : List UInt8) :
    ByteArray.toList.loop bytes i before = before.reverse ++ bytes.data.toList.drop i := by
  fun_induction ByteArray.toList.loop bytes i before with
  | case1 i before hi ih =>
    have hlen : i < bytes.data.toList.length := hi
    have hget : bytes.get! i = bytes.data.toList[i] := getElem!_pos bytes.data i hi
    rw [ih, List.drop_eq_getElem_cons hlen, hget]
    simp
  | case2 i before hi =>
    rw [List.drop_eq_nil_of_le (Nat.le_of_not_lt hi), List.append_nil]

theorem toList_eq_data (bytes : ByteArray) : bytes.toList = bytes.data.toList :=
  toList_loop bytes 0 []

theorem toList_append (bytes more : ByteArray) : (bytes ++ more).toList = bytes.toList ++ more.toList := by
  rw [toList_eq_data, toList_eq_data, toList_eq_data, ByteArray.data_append, Array.toList_append]

end Text

namespace Session

/-- Every line of the content is text. -/
def IsText (content : ByteArray) : Prop :=
  ∀ line ∈ Text.lines content.toList, (Text.ofBytes? line).isSome = true

/-- The content is empty or ends in a line feed. -/
def EndsLine (content : ByteArray) : Prop :=
  ∀ b, content.toList.getLast? = some b → b = Text.lineFeed

instance decidableIsText (content : ByteArray) : Decidable (IsText content) :=
  inferInstanceAs (Decidable (∀ line ∈ Text.lines content.toList, (Text.ofBytes? line).isSome = true))

instance decidableEndsLine (content : ByteArray) : Decidable (EndsLine content) :=
  decidable_of_iff (content.toList.getLast?.all (· == Text.lineFeed) = true)
    (by simp [EndsLine, Option.all_eq_true])

/-- What a line holds if it is not blank: an event, or the reason why it does not. -/
def readLine? (bytes : List UInt8) : Option (Except LineFault Event) :=
  (Text.ofBytes? bytes).bind fun line =>
    let line := Text.trim line.toList
    if line.isEmpty then none else some (Event.ofLine (String.ofList line))

def eventsIn (lines : List (List UInt8)) : List Event :=
  lines.filterMap fun line => (readLine? line).bind Except.toOption

/-- How many lines hold neither an event nor only blanks. -/
def faultsIn (lines : List (List UInt8)) : Nat :=
  lines.countP fun line => (readLine? line).any fun held => held.toOption.isNone

/-- The lines before the first that is no text. -/
def textLines (lines : List (List UInt8)) : List (List UInt8) :=
  lines.takeWhile fun line => (Text.ofBytes? line).isSome

def eventsOf (content : ByteArray) : List Event := eventsIn (Text.lines content.toList)

def faultsOf (content : ByteArray) : Nat := faultsIn (Text.lines content.toList)

variable {q : Progress} {line : String} {bytes : List UInt8} {lines more : List (List UInt8)} {content : ByteArray}

theorem eventsIn_append : eventsIn (lines ++ more) = eventsIn lines ++ eventsIn more := List.filterMap_append

theorem faultsIn_append : faultsIn (lines ++ more) = faultsIn lines + faultsIn more := List.countP_append

theorem eventsIn_cons (line : List UInt8) (rest : List (List UInt8)) :
    eventsIn (line :: rest) = eventsIn [line] ++ eventsIn rest :=
  @eventsIn_append [line] rest

theorem faultsIn_cons (line : List UInt8) (rest : List (List UInt8)) :
    faultsIn (line :: rest) = faultsIn [line] + faultsIn rest :=
  @faultsIn_append [line] rest

theorem textLines_cons_of_none (h : Text.ofBytes? bytes = none) (rest : List (List UInt8)) :
    textLines (bytes :: rest) = [] :=
  List.takeWhile_cons_of_neg (by simp [h])

theorem textLines_cons_of_some (h : Text.ofBytes? bytes = some line) (rest : List (List UInt8)) :
    textLines (bytes :: rest) = bytes :: textLines rest :=
  List.takeWhile_cons_of_pos (by simp [h])

theorem textLines_eq_self (h : ∀ line ∈ lines, (Text.ofBytes? line).isSome = true) : textLines lines = lines := by
  induction lines with
  | nil => rfl
  | cons bytes rest ih =>
    rw [List.forall_mem_cons] at h
    obtain ⟨line, hline⟩ := Option.isSome_iff_exists.mp h.1
    rw [textLines_cons_of_some hline, ih h.2]

section Lines

variable {p r : Progress}

/-- The progress after an event, which is in the line of the given number. -/
def Progress.afterEvent (p : Progress) (number : Nat) (event : Event) : Progress :=
  let o := p.session.track event
  let taken : Progress := ⟨o.after, { p.tally with events := p.tally.events + 1 }, p.notices ++ o.notices⟩
  match o.result with
  | .ok () => taken
  | .error f => taken.blame (.failedLine number f)

/-- The progress after a line that is text. -/
def Progress.afterLine (p : Progress) (number : Nat) (bytes : List UInt8) : Progress :=
  match readLine? bytes with
  | none => p
  | some (.error fault) => p.blame (.skippedLine number fault)
  | some (.ok event) => p.afterEvent number event

/-- The progress after lines that are text, of which the first has the given number. -/
def Progress.through (p : Progress) (number : Nat) : List (List UInt8) → Progress
  | [] => p
  | bytes :: rest => (p.afterLine number bytes).through (number + 1) rest

theorem takeLines_cons (p : Progress) (number : Nat) (h : Text.ofBytes? bytes = some line)
    (rest : List (List UInt8)) :
    p.takeLines number (bytes :: rest) = (p.afterLine number bytes).takeLines (number + 1) rest := by
  simp only [Progress.takeLines, h, Progress.afterLine, readLine?, Option.bind_some]
  split
  · rfl
  · simp only [Progress.takeLine]
    cases Event.ofLine (String.ofList (Text.trim line.toList)) <;> rfl

/-- All lines that are text are taken in up to the first that is none, and that one stops the log. -/
theorem takeLines_eq (p : Progress) (number : Nat) (lines : List (List UInt8)) :
    p.takeLines number lines =
      let q := p.through number (textLines lines)
      if ∀ line ∈ lines, (Text.ofBytes? line).isSome = true
      then ⟨q.session, .ok q.tally, q.notices.push (.completed q.tally.events q.tally.errors)⟩
      else ⟨q.session, .error (.line (number + (textLines lines).length) .notText), q.notices⟩ := by
  induction lines generalizing p number with
  | nil => rfl
  | cons bytes rest ih =>
    cases hbytes : Text.ofBytes? bytes with
    | none =>
      rw [textLines_cons_of_none hbytes]
      simp [Progress.takeLines, Progress.through, hbytes]
    | some line =>
      rw [takeLines_cons p number hbytes, ih, textLines_cons_of_some hbytes]
      simp only [Progress.through, List.forall_mem_cons, hbytes, Option.isSome_some, true_and, List.length_cons,
        Nat.add_assoc, Nat.add_comm 1]

/-- What a session and its tally come to by the events and the faults of some lines. -/
def Progress.Advances (p : Progress) (events : List Event) (faults : Nat) (q : Progress) : Prop :=
  q.session = { p.session with engine := p.session.engine.trackAll events } ∧
    q.tally = ⟨p.tally.events + events.length,
      p.tally.errors + (faults + (p.session.engine.failures events).length)⟩

theorem advances_afterEvent (p : Progress) (number : Nat) (event : Event) :
    p.Advances [event] 0 (p.afterEvent number event) := by
  have hresult : (p.session.track event).result = (p.session.engine.track event).result := rfl
  simp only [Progress.afterEvent, hresult, Progress.Advances, Engine.failures]
  cases (p.session.engine.track event).result <;> exact ⟨rfl, rfl⟩

/-- What one line does. -/
theorem advances_afterLine (p : Progress) (number : Nat) (bytes : List UInt8) :
    p.Advances (eventsIn [bytes]) (faultsIn [bytes]) (p.afterLine number bytes) := by
  simp only [Progress.afterLine, eventsIn, faultsIn, List.filterMap_cons, List.countP_cons]
  cases readLine? bytes with
  | none => exact ⟨rfl, rfl⟩
  | some held =>
    cases held with
    | error fault => exact ⟨rfl, rfl⟩
    | ok event => exact advances_afterEvent p number event

theorem Progress.Advances.trans {events further : List Event} {faults others : Nat}
    (h : p.Advances events faults q) (h' : q.Advances further others r) :
    p.Advances (events ++ further) (faults + others) r := by
  obtain ⟨hs, ht⟩ := h
  obtain ⟨hs', ht'⟩ := h'
  constructor
  · rw [hs', hs, Engine.trackAll_append]
  · rw [ht', ht, hs]
    simp only [Engine.failures_append, List.length_append, Tally.mk.injEq]
    omega

theorem advances_through (p : Progress) (number : Nat) (lines : List (List UInt8)) :
    p.Advances (eventsIn lines) (faultsIn lines) (p.through number lines) := by
  induction lines generalizing p number with
  | nil => exact ⟨rfl, rfl⟩
  | cons bytes rest ih =>
    rw [eventsIn_cons, faultsIn_cons]
    exact (advances_afterLine p number bytes).trans (ih (p.afterLine number bytes) (number + 1))

end Lines

section Logs

variable {first second : ByteArray}

/-- The progress of a session that begins with a log. -/
def begun (s : Session) : Progress := ⟨s, ⟨0, 0⟩, #[]⟩

theorem replay_eq_through (s : Session) (content : ByteArray) : s.replay content =
    let lines := textLines (Text.lines content.toList)
    let q := s.begun.through 1 lines
    if IsText content
    then ⟨q.session, .ok q.tally, q.notices.push (.completed q.tally.events q.tally.errors)⟩
    else ⟨q.session, .error (.line (1 + lines.length) .notText), q.notices⟩ :=
  takeLines_eq s.begun 1 (Text.lines content.toList)

theorem tally_through (s : Session) (number : Nat) (lines : List (List UInt8)) :
    (s.begun.through number lines).tally =
      ⟨(eventsIn lines).length, faultsIn lines + (s.engine.failures (eventsIn lines)).length⟩ := by
  rw [(advances_through s.begun number lines).2]
  simp only [begun, Nat.zero_add]

theorem replay_eq (s : Session) (h : IsText content) :
    (s.replay content).after = { s with engine := s.engine.trackAll (eventsOf content) } ∧
      (s.replay content).result = .ok ⟨(eventsOf content).length,
        faultsOf content + (s.engine.failures (eventsOf content)).length⟩ := by
  simp only [replay_eq_through, textLines_eq_self h, if_pos h]
  exact ⟨(advances_through s.begun 1 _).1, congrArg Except.ok (s.tally_through 1 _)⟩

/-- A log does the same to sessions with the same tables and aggregators, whatever events they have seen. -/
theorem replay_congr {s t : Session} (htables : s.engine.SameTables t.engine)
    (hsame : s.engine.aggregators = t.engine.aggregators) (h : IsText content) :
    (s.replay content).result = (t.replay content).result ∧
      (s.replay content).after.engine.aggregators = (t.replay content).after.engine.aggregators := by
  obtain ⟨hafter, hresult⟩ := s.replay_eq h
  obtain ⟨hafter', hresult'⟩ := t.replay_eq h
  obtain ⟨-, hregistry, hfailures⟩ := Engine.trackAll_congr htables hsame (eventsOf content)
  rw [hafter, hafter', hresult, hresult', hfailures]
  exact ⟨rfl, hregistry⟩

/-- What can be read of a log without a failure is a log all lines of which are text. -/
theorem replay_isOk_iff (s : Session) : (∃ t, (s.replay content).result = .ok t) ↔ IsText content := by
  rw [replay_eq_through]
  by_cases h : IsText content <;> simp [h]

theorem lines_append (h : EndsLine first) : Text.lines (first ++ second).toList =
    Text.lines first.toList ++ Text.lines second.toList := by
  rw [Text.toList_append]
  rcases List.eq_nil_or_concat first.toList with hnil | ⟨before, b, hb⟩
  · rw [hnil]
    rfl
  · rw [List.concat_eq_append] at hb
    obtain rfl : b = Text.lineFeed := h b (by rw [hb, List.getLast?_concat])
    rw [hb, List.append_assoc]
    exact Text.lines_append before second.toList

theorem IsText.append (hends : EndsLine first) (hfirst : IsText first) (hsecond : IsText second) :
    IsText (first ++ second) := by
  intro line hline
  rw [lines_append hends] at hline
  rcases List.mem_append.mp hline with hmem | hmem
  · exact hfirst line hmem
  · exact hsecond line hmem

/-- Two logs behind each other are taken in as one after the other. -/
theorem replay_append (s : Session) (hends : EndsLine first) (hfirst : IsText first)
    (hsecond : IsText second) : ∃ t u,
      (s.replay first).result = .ok t ∧ ((s.replay first).after.replay second).result = .ok u ∧
      (s.replay (first ++ second)).result = .ok ⟨t.events + u.events, t.errors + u.errors⟩ ∧
      (s.replay (first ++ second)).after = ((s.replay first).after.replay second).after := by
  obtain ⟨hafter, hresult⟩ := s.replay_eq hfirst
  obtain ⟨hnext, hnextResult⟩ := (s.replay first).after.replay_eq hsecond
  obtain ⟨hwhole, hwholeResult⟩ := s.replay_eq (hfirst.append hends hsecond)
  have hevents : eventsOf (first ++ second) = eventsOf first ++ eventsOf second := by
    rw [eventsOf, lines_append hends, eventsIn_append]
    rfl
  have hfaults : faultsOf (first ++ second) = faultsOf first + faultsOf second := by
    rw [faultsOf, lines_append hends, faultsIn_append]
    rfl
  refine ⟨_, _, hresult, hnextResult, ?_, ?_⟩
  · rw [hwholeResult, hevents, hfaults, hafter]
    simp only [Engine.failures_append, List.length_append, Except.ok.injEq, Tally.mk.injEq, true_and]
    omega
  · rw [hwhole, hnext, hafter, hevents, Engine.trackAll_append]

end Logs

end Session

end EventFold
