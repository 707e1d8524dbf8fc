import EventFold.Json.Reader
import EventFold.Json.Writer

/-!
# Specifications

A specification has four sections: variables with their values, functions and aggregators with their
forms, and triggers, which are carried along and never evaluated. All keep the order of the document.

A specification is read from an object of sections, each optional, or from an array of sections.
-/

namespace EventFold

structure Specification where
  vars : Table Value
  functions : Table Form
  aggregators : Table Form
  triggers : Table Json
deriving Inhabited

namespace Specification

def empty : Specification := ⟨∅, ∅, ∅, ∅⟩

def isEmpty (s : Specification) : Bool :=
  s.vars.isEmpty && s.functions.isEmpty && s.aggregators.isEmpty && s.triggers.isEmpty

def withVariable (s : Specification) (name : String) (value : Value) : Specification :=
  { s with vars := s.vars.insert name value }

def withFunction (s : Specification) (name : String) (body : Form) : Specification :=
  { s with functions := s.functions.insert name body }

def withAggregator (s : Specification) (name : String) (form : Form) : Specification :=
  { s with aggregators := s.aggregators.insert name form }

inductive Section where
  | vars
  | functions
  | aggregators
  | triggers
deriving DecidableEq, Repr

namespace Section

def all : List Section := [vars, functions, aggregators, triggers]

def key : Section → String
  | vars => "variables"
  | functions => "functions"
  | aggregators => "aggregators"
  | triggers => "triggers"

def ofKey? (s : String) : Option Section :=
  all.find? fun part => part.key == s

end Section

open Json (Fault Reader)
open Json.Reader

/-- Reads a section into a specification. Two brackets are open around its entries. -/
def readSection (s : Specification) (part : Section) : Reader Specification := do
  let room := Json.maxNesting - 2
  match part with
  | .vars => return { s with vars := ← table (shaped Json.value? room) }
  | .functions => return { s with functions := ← table (shaped Json.form? room) }
  | .aggregators => return { s with aggregators := ← table (shaped Json.form? room) }
  | .triggers => return { s with triggers := ← table (shaped (fun j => some j.sorted) room) }

/-- Reads what stands behind a key, given the sections that have been seen: a section may not come twice,
other keys are passed over. -/
def readMember (seen : Specification × List Section) (key : String) :
    Reader (Specification × List Section) := do
  match Section.ofKey? key with
  | some part =>
    if part ∈ seen.2 then misshapen
    else return (← field (readSection seen.1 part), part :: seen.2)
  | none =>
    field ignored
    return seen

def readElement (left : Specification × List Section) : Reader (Specification × List Section) := do
  match left.2 with
  | part :: rest => return (← readSection left.1 part, rest)
  | [] => malformed

def read : Reader Specification := do
  match ← look with
  | '[' => return (← bracket '[' ']' readElement (empty, Section.all)).1
  | _ => return (← object readMember (empty, [])).1

def ofText (text : String) : Except Fault Specification :=
  whole read text

def tableJson {α : Type} (f : α → Json) (t : Table α) : Json :=
  .object (t.entries.map fun e => (e.1, f e.2))

def toJson (s : Specification) : Json :=
  .object
    [(Section.vars.key, tableJson Value.toJson s.vars),
     (Section.functions.key, tableJson Form.toJson s.functions),
     (Section.aggregators.key, tableJson Form.toJson s.aggregators),
     (Section.triggers.key, tableJson id s.triggers)]

end Specification

end EventFold
