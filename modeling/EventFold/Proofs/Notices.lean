import EventFold.Log.Line
import EventFold.Notice
import EventFold.Proofs.Form.Offences
import EventFold.Proofs.Text.OneLine

/-!
# Records of notices

The record of a notice is one line of a plain log if each text that goes into it is on one line. Most texts from
outside are quoted on their way. Two are not: the name of an aggregator that is rejected, and the name of a function
in the account of an event that fails on its call. What is said of a line that is no JSON is taken to be on one line.
-/

namespace EventFold

open Text

section Messages

theorem Operator.isOneLine_keyword (op : Operator) : IsOneLine op.keyword := by
  cases op <;> decide

theorem AggregatorKind.isOneLine_tag (kind : AggregatorKind) : IsOneLine kind.tag := by
  cases kind <;> decide

theorem NameKind.isOneLine_word (kind : NameKind) : IsOneLine kind.word := by
  cases kind <;> decide

theorem LineFault.isOneLine_message [Wording] (hwords : ∀ text, IsOneLine (Wording.line text))
    (fault : LineFault) : IsOneLine fault.message := by
  cases fault with
  | json line => exact hwords line
  | notObject =>
    change IsOneLine "event is not a JSON object"
    decide

theorem isOneLine_shownOption (name : Option String) : IsOneLine (shownOption name) := by
  cases name with
  | none => decide
  | some s =>
    simp only [shownOption, isOneLine_append, isOneLine_quote, and_true]
    decide

namespace FormError

variable {names : Vocabulary} {f : Form} {error : FormError}

/-- All that a message shows is quoted, but for the head of a list that has too few elements or too many. -/
theorem isOneLine_message (h : ∀ head required found, error = .arity head required found → IsOneLine head) :
    IsOneLine error.message := by
  unfold message
  cases error with
  | arity head required found =>
    simp only [isOneLine_append, isOneLine_toString, h head required found rfl, and_true]
    and_intros <;> exact isOneLine_ofList.mpr (by decide)
  | unknownName kind name =>
    simp only [isOneLine_append, isOneLine_quote, kind.isOneLine_word, and_true]
    and_intros <;> exact isOneLine_ofList.mpr (by decide)
  | emptyForm => exact isOneLine_ofList.mpr (by decide)
  | _ =>
    simp only [isOneLine_append, isOneLine_quote, Form.isOneLine_display, and_true]
    and_intros <;> exact isOneLine_ofList.mpr (by decide)

/-- Such a head is a word of the language. -/
theorem isOneLine_of_offends (h : Form.Offends names f error) : IsOneLine error.message := by
  apply isOneLine_message
  rintro head required found rfl
  cases h with
  | choiceArity => decide
  | operatorArity => exact Operator.isOneLine_keyword _

theorem isOneLine_of_toRule (h : f.toRule names = .error error) : IsOneLine error.message := by
  rcases Form.toRule_eq_error_iff.mp h with hoffends | ⟨-, _, _, _, -, -, hnode⟩
  · apply isOneLine_message
    rintro head required found rfl
    cases hoffends with
    | selectionArity => exact AggregatorKind.isOneLine_tag _
    | noExpressions => exact AggregatorKind.isOneLine_tag _
  · exact isOneLine_of_offends hnode

end FormError

theorem EvalError.isOneLine_message_iff {error : EvalError} : IsOneLine error.message ↔
    ∀ function limit, error = .callDepthExceeded function limit → IsOneLine function := by
  unfold message
  cases error with
  | notANumber op value =>
    refine iff_of_true ?_ nofun
    simp only [isOneLine_append, op.isOneLine_keyword, Value.isOneLine_shown, and_true]
    and_intros <;> exact isOneLine_ofList.mpr (by decide)
  | callDepthExceeded function limit =>
    have hbeginning : IsOneLine "call depth limit " := isOneLine_ofList.mpr (by decide)
    have hmiddle : IsOneLine " exceeded calling `" := isOneLine_ofList.mpr (by decide)
    have hend : IsOneLine "`" := isOneLine_ofList.mpr (by decide)
    simp only [isOneLine_append, isOneLine_toString, hbeginning, hmiddle, hend, true_and, and_true]
    constructor
    · rintro h _ _ ⟨⟩
      exact h
    · intro h
      exact h function limit rfl

end Messages

namespace Log

variable {style s time : String} {coloured : Bool} {r : Record}

theorem isOneLine_styled (h : IsOneLine style) : IsOneLine (styled style s) ↔ IsOneLine s := by
  have hbegin : IsOneLine "\x1b[" := by decide
  have hletter : IsOneLine "m" := by decide
  have hreset : IsOneLine "\x1b[0m" := by decide
  simp only [styled, isOneLine_append, hbegin, h, hletter, hreset, true_and, and_true]

theorem isOneLine_styledIf (h : IsOneLine style) : IsOneLine (styledIf coloured style s) ↔ IsOneLine s := by
  cases coloured with
  | true => exact isOneLine_styled h
  | false => exact Iff.rfl

theorem Level.isOneLine_padded (level : Level) : IsOneLine level.padded := by
  cases level <;> decide

theorem Level.isOneLine_colour (level : Level) : IsOneLine level.colour := by
  cases level <;> decide

@[simp] theorem Content.isOneLine_shown_text (s : String) : IsOneLine (text s).shown := isOneLine_quote s

@[simp] theorem Content.isOneLine_shown_plain : IsOneLine (plain s).shown ↔ IsOneLine s := Iff.rfl

@[simp] theorem Content.isOneLine_shown_count (n : Nat) : IsOneLine (count n).shown := isOneLine_toString n

@[simp] theorem Content.isOneLine_shown_flag (b : Bool) : IsOneLine (flag b).shown := by
  cases b <;> decide

theorem Record.isOneLine_shownFields (r : Record) : IsOneLine r.shownFields ↔
    ∀ field ∈ r.fields, IsOneLine field.1 ∧ IsOneLine field.2.shown := by
  have hequals : IsOneLine "=" := by decide
  rw [shownFields, isOneLine_intercalate (by decide), List.forall_mem_map]
  simp only [isOneLine_append, hequals, and_true]

theorem isOneLine_inBrackets (domain : Option String) :
    IsOneLine ((domain.map fun d => styledIf coloured "1;36" ("[" ++ d ++ "]") ++ " ").getD "") ↔
      ∀ d, domain = some d → IsOneLine d := by
  cases domain with
  | none => exact iff_of_true isOneLine_empty nofun
  | some d =>
    have hopen : IsOneLine "[" := by decide
    have hclose : IsOneLine "]" := by decide
    have hblank : IsOneLine " " := by decide
    rw [Option.map_some, Option.getD_some, isOneLine_append, isOneLine_styledIf (by decide), isOneLine_append,
      isOneLine_append, and_iff_left hblank, and_iff_left hclose, and_iff_right hopen]
    exact ⟨fun h _ heq => Option.some.inj heq ▸ h, fun h => h d rfl⟩

theorem Record.isOneLine_behindMessage (r : Record) :
    IsOneLine (if r.fields.isEmpty then "" else " " ++ styledIf coloured "3" r.shownFields) ↔
      ∀ field ∈ r.fields, IsOneLine field.1 ∧ IsOneLine field.2.shown := by
  split
  · rename_i hempty
    rw [List.isEmpty_iff.mp hempty]
    exact iff_of_true isOneLine_empty (List.forall_mem_nil _)
  · have hblank : IsOneLine " " := by decide
    rw [isOneLine_append, isOneLine_styledIf (by decide), and_iff_right hblank, isOneLine_shownFields]

/-- A plain line is one line if all that is put into it is on one line. -/
theorem Record.isLine_plainLine (htime : IsOneLine time) : IsLine (r.plainLine coloured time) ↔
    (∀ d, r.domain = some d → IsOneLine d) ∧ IsOneLine r.message ∧
      ∀ field ∈ r.fields, IsOneLine field.1 ∧ IsOneLine field.2.shown := by
  have hblank : IsOneLine " " := by decide
  have hstamp : IsOneLine (styledIf coloured "2" time) := (isOneLine_styledIf (by decide)).mpr htime
  have hlevel : IsOneLine (styledIf coloured r.level.colour r.level.padded) :=
    (isOneLine_styledIf r.level.isOneLine_colour).mpr r.level.isOneLine_padded
  rw [plainLine, isLine_append_newline]
  simp only [isOneLine_append, hstamp, hblank, hlevel, isOneLine_inBrackets, isOneLine_behindMessage, true_and,
    and_true, and_assoc]

end Log

/-- Which texts may turn up in notices as the names of aggregators, of functions that are called and of files. -/
structure Sources where
  aggregator : String → Prop
  function : String → Prop
  file : String → Prop

namespace Notice

variable {w : Sources} {n : Notice} {time : String} {coloured : Bool}

/-- The names that a record shows as they are. -/
def bareNames : Notice → List String
  | rejected name _ => [name]
  | failedLine _ (.evaluation (.callDepthExceeded function _)) => [function]
  | _ => []

/-- The names in a notice are from the sources, and its errors are what a reading or an evaluation fails with. -/
def Within (w : Sources) : Notice → Prop
  | dropping name error | rejected name error =>
    w.aggregator name ∧ ∃ names, ∃ f : Form, f.toRule names = .error error
  | failedLine _ failure => ∃ error, failure = .evaluation error ∧
    ∀ function limit, error = .callDepthExceeded function limit → w.function function
  | snapshotWritten file | snapshotRestored file _ _ => w.file file
  | _ => True

theorem Within.of_mem_bareNames (h : n.Within w) : ∀ name ∈ n.bareNames, w.aggregator name ∨ w.function name := by
  unfold bareNames
  split
  · exact List.forall_mem_singleton.mpr (.inl h.1)
  · obtain ⟨error, heq, hfunction⟩ := h
    cases heq
    exact List.forall_mem_singleton.mpr (.inr (hfunction _ _ rfl))
  · exact List.forall_mem_nil _

section Shown

variable [Wording]

theorem isOneLine_message_of_evaluation {error : EvalError} :
    IsOneLine (Failure.evaluation error).message ↔ IsOneLine error.message := by
  have hopen : IsOneLine "[" := by decide
  have hclose : IsOneLine "] " := by decide
  have hreason : IsOneLine "evaluation error: " := isOneLine_ofList.mpr (by decide)
  change IsOneLine ("[" ++ toString 1002 ++ "] " ++ ("evaluation error: " ++ error.message) ++ "" ++ "") ↔ _
  simp only [isOneLine_append, isOneLine_toString, isOneLine_empty, hopen, hclose, hreason, true_and, and_true]

theorem isOneLine_domain (n : Notice) (domain : String) (h : n.record.domain = some domain) :
    IsOneLine domain := by
  cases n <;> cases h <;> decide

theorem isOneLine_fieldName (n : Notice) : ∀ field ∈ n.record.fields, IsOneLine field.1 := by
  cases n <;> simp only [record, engineRecord, sessionRecord, List.forall_mem_cons] <;> and_intros <;>
    first | exact List.forall_mem_nil _ | exact isOneLine_ofList.mpr (by decide)

/-- Names in messages are quoted. -/
theorem Within.isOneLine_message (h : n.Within w) : IsOneLine n.record.message := by
  cases n with
  | dropping name error =>
    obtain ⟨-, names, f, herror⟩ := h
    simp only [record, engineRecord, isOneLine_append, isOneLine_quote, FormError.isOneLine_of_toRule herror, and_true]
    and_intros <;> exact isOneLine_ofList.mpr (by decide)
  | registering name kind =>
    simp only [record, engineRecord, isOneLine_append, isOneLine_quote, kind.isOneLine_tag, and_true]
    and_intros <;> exact isOneLine_ofList.mpr (by decide)
  | foreignState name found kind =>
    simp only [record, engineRecord, isOneLine_append, isOneLine_quote, found.isOneLine_tag, kind.isOneLine_tag,
      and_true]
    and_intros <;> exact isOneLine_ofList.mpr (by decide)
  | refusedMove name state value =>
    simp only [record, engineRecord, isOneLine_append, isOneLine_quote, Value.isOneLine_display_number,
      Value.isOneLine_shown, and_true]
    and_intros <;> exact isOneLine_ofList.mpr (by decide)
  | replayed events aggregators =>
    simp only [record, engineRecord, isOneLine_append, isOneLine_toString, and_true]
    and_intros <;> exact isOneLine_ofList.mpr (by decide)
  | removing name =>
    simp only [record, engineRecord, isOneLine_append, isOneLine_quote, and_true]
    exact isOneLine_ofList.mpr (by decide)
  | _ => exact isOneLine_ofList.mpr (by decide)

/-- Apart from bare names, the texts that fields show as they are are on one line. -/
theorem Within.isOneLine_fields_iff (h : n.Within w) (hwords : ∀ text, IsOneLine (Wording.line text))
    (hfile : ∀ file, w.file file → IsOneLine file) :
    (∀ field ∈ n.record.fields, IsOneLine field.2.shown) ↔ ∀ name ∈ n.bareNames, IsOneLine name := by
  cases n with
  | rejected name error =>
    obtain ⟨-, names, f, herror⟩ := h
    simp [record, sessionRecord, bareNames, FormError.isOneLine_of_toRule herror]
  | failedLine number failure =>
    obtain ⟨error, rfl, -⟩ := h
    have hmessage : IsOneLine (Failure.evaluation error).message ↔
        ∀ name ∈ (failedLine number (.evaluation error)).bareNames, IsOneLine name := by
      rw [isOneLine_message_of_evaluation, EvalError.isOneLine_message_iff]
      cases error <;> simp [bareNames]
    simp [record, sessionRecord, hmessage]
  | skippedLine number fault =>
    simp [record, sessionRecord, bareNames, fault.isOneLine_message hwords]
  | tracking event => simp [record, sessionRecord, bareNames, isOneLine_shownOption]
  | mistyped event property => simp [record, sessionRecord, bareNames, isOneLine_shownOption]
  | snapshotWritten file => simp [record, sessionRecord, bareNames, hfile file h]
  | snapshotRestored file restored saved => simp [record, sessionRecord, bareNames, hfile file h]
  | _ => simp [record, engineRecord, sessionRecord, bareNames]

theorem Within.isLine_iff (h : n.Within w) (hwords : ∀ text, IsOneLine (Wording.line text))
    (hfile : ∀ file, w.file file → IsOneLine file) (htime : IsOneLine time) :
    IsLine (n.record.plainLine coloured time) ↔ ∀ name ∈ n.bareNames, IsOneLine name := by
  rw [Log.Record.isLine_plainLine htime, ← h.isOneLine_fields_iff hwords hfile]
  constructor
  · rintro ⟨-, -, hfields⟩ field hfield
    exact (hfields field hfield).2
  · intro hfields
    exact ⟨n.isOneLine_domain, h.isOneLine_message, fun field hfield =>
      ⟨n.isOneLine_fieldName field hfield, hfields field hfield⟩⟩

end Shown

end Notice

end EventFold
