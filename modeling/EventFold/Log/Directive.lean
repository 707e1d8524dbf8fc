import EventFold.Log.Pattern
import EventFold.Log.Record
import EventFold.Text.Blank
import EventFold.Text.Bytes
import EventFold.Text.Natural

/-!
# Directives of log filters

A directive says for some of the records up to which level they are let through: those whose target begins as
it says and that have the field it names. It is a level, a target, `target=level` or
`target[span{field=value}]=level`, of which the target, the span, the value and the level may be left out.
-/

namespace EventFold.Log

/-- Up to which level records are let through; `none` lets nothing through. -/
abbrev Threshold := Option Level

namespace Threshold

def all : List Threshold := none :: [Level.error, .warn, .info, .debug, .trace].map some

def word : Threshold → String
  | none => "OFF"
  | some level => level.name

/-- The threshold of a word in either case, or of its place among all. -/
def ofText? (s : List Char) : Option Threshold :=
  match Text.natural? s with
  | some n => all[n]?
  | none => all.find? fun t => t.word.toList == s.map Char.toUpper

def admits (t : Threshold) (level : Level) : Bool := t.any fun most => level.rank ≤ most.rank

end Threshold

/-- The fields of records without a domain that tell where they were made. -/
def sourceFields : List String := ["log.target", "log.module_path", "log.file", "log.line"]

def Record.fieldNames (r : Record) : List String :=
  "message" :: (if r.domain.isSome then "domain" :: r.fields.map Prod.fst else sourceFields)

structure Directive where
  target : Option String
  field : Option String
  /-- Whether no record is meant at all, as when a span is asked for: records are made outside of spans. -/
  void : Bool
  threshold : Threshold
deriving DecidableEq, Repr

namespace Directive

inductive Fault where
  | malformed
  /-- One of its pieces would begin or end within a character. -/
  | torn
deriving DecidableEq, Repr

def piece (text : List Char) (start stop : Nat) : Except Fault (List Char) :=
  match Text.between? start stop text with
  | some s => .ok s
  | none => .error .torn

def thresholdOf (word : List Char) : Except Fault Threshold :=
  match Threshold.ofText? word with
  | some t => .ok t
  | none => .error .malformed

structure Context where
  field : Option String
  void : Bool

/-- The context of a field and, behind an equals sign, a value for it. Whatever stands behind a second equals
sign does not count. -/
def fieldContext (inSpan : Bool) (text : List Char) : Except Fault Context :=
  match text.span (· != '=') with
  | ([], []) => .error .malformed
  | (name, []) => .ok ⟨some (String.ofList name), inSpan⟩
  | (name, _ :: rest) =>
    if Pattern.isValue (rest.takeWhile (· != '=')) then .ok ⟨some (String.ofList name), true⟩
    else .error .malformed

section

/-! The signs of a directive are looked for in its text without the blanks at its ends, and their places are
counted there, but what stands at a place is taken from the text as it was given. So blanks at the end belong
to the last piece, and with blanks at the beginning every piece is taken from further to the left. -/

variable (text : List Char)

def readThreshold (place : Nat) : Except Fault Threshold := do
  match ← piece text place (Text.byteCount text) with
  | [] => return some .trace
  | word => thresholdOf word

def readEnd (place : Nat) : List Char → Except Fault Threshold
  | [] => .ok (some .trace)
  | '=' :: _ => readThreshold text (place + 1)
  | _ => .error .malformed

def readField (inSpan : Bool) (place : Nat) (s : List Char) : Except Fault (Context × Threshold) := do
  match s.span (· != '\x7d') with
  | (field, '\x7d' :: s) =>
    let stop := place + Text.byteCount field
    let context ← fieldContext inSpan (← piece text place stop)
    match s with
    | ']' :: s => return (context, ← readEnd text (stop + 2) s)
    | _ => throw .malformed
  | _ => throw .malformed

/-- A context from behind its bracket: a span, or a field with a span before it if one likes. -/
def readContext (place : Nat) (s : List Char) : Except Fault (Context × Threshold) := do
  match s.span fun c => c != ']' && c != '\x7b' with
  | (span, ']' :: s) =>
    let stop := place + Text.byteCount span
    let _ ← piece text place stop
    return (⟨none, true⟩, ← readEnd text (stop + 1) s)
  | (span, '\x7b' :: s) =>
    let stop := place + Text.byteCount span
    let span ← piece text place stop
    readField text (!span.isEmpty) (stop + 1) s
  | _ => throw .malformed

def isTargetStart (c : Char) : Bool := c == '-' || c == ':' || c == '_' || Text.isAlphanumeric c

/-- The directive of a text. A word alone is a level for all records if it can be; where no level is given
everything is let through. -/
def read : Except Fault Directive := do
  match Text.trim text with
  | [] => throw .malformed
  | '[' :: s =>
    let (context, most) ← readContext text 1 s
    return ⟨none, context.field, context.void, most⟩
  | c :: s =>
    if isTargetStart c then
      let (word, s) := (c :: s).span fun c => c != '=' && c != '['
      let stop := Text.byteCount word
      match s with
      | '=' :: _ =>
        let target ← piece text 0 stop
        return ⟨some (String.ofList target), none, false, ← readThreshold text (stop + 1)⟩
      | '[' :: s =>
        let target ← piece text 0 stop
        let (context, most) ← readContext text (stop + 1) s
        return ⟨some (String.ofList target), context.field, context.void, most⟩
      | _ =>
        match Threshold.ofText? text with
        | some most => return ⟨none, none, false, most⟩
        | none => return ⟨some (String.ofList text), none, false, some .trace⟩
    else throw .malformed

end

def ofText (s : String) : Except Fault Directive := read s.toList

def isAbout (d : Directive) (r : Record) : Bool :=
  !d.void && d.target.all (fun t => (Text.dropBeginning? t r.target).isSome) &&
    d.field.all r.fieldNames.contains

/-- How specific a directive is: a longer target is more specific than a shorter one, and of equal targets
one with a field is more specific than one without. -/
def compareSpecific (d e : Directive) : Ordering :=
  (compare (d.target.map String.length) (e.target.map String.length)).then (compare d.field e.field)

def moreSpecific (d e : Directive) : Directive :=
  if (d.compareSpecific e).isGT then d else e

end Directive

end EventFold.Log
