import EventFold.Event
import EventFold.Notice

/-!
# Reading events

There are two readers. The strict one takes an object whose members are all values. The lenient one, for
the lines of an event log, takes any object and leaves out the members that are arrays or objects. In
both the last of several members under one key counts.
-/

namespace EventFold.Event

open Json (Fault)

/-- Strict: the event of a text that is an object of values. -/
def ofText (text : String) : Except Fault Event :=
  (Json.tableText Json.value? text).map Event.mk

def ofMembers (members : List (String × Json)) : Event :=
  ⟨.ofList ((Table.ofList members).entries.filterMap fun (key, j) => j.value?.map (key, ·))⟩

/-- Lenient: the event of a tree that is an object. -/
def ofJson? : Json → Option Event
  | .object members => some (ofMembers members)
  | _ => none

def ofLine (line : String) : Except LineFault Event :=
  match Json.ofText line with
  | .error _ => .error (.json line)
  | .ok j =>
    match ofJson? j with
    | some e => .ok e
    | none => .error .notObject

end EventFold.Event
