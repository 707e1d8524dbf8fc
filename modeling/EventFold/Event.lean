import EventFold.Table
import EventFold.Value

/-!
# Events

An event is a set of named values. The property `name` tells the kind of event by convention; the
engine itself treats all properties alike.
-/

namespace EventFold

structure Event where
  properties : Table Value
deriving DecidableEq, Inhabited

namespace Event

def empty : Event := ⟨∅⟩

def get? (e : Event) (property : String) : Option Value := e.properties.get? property

def set (e : Event) (property : String) (value : Value) : Event :=
  ⟨e.properties.insert property value⟩

def named (name : String) : Event := empty.set "name" (.text name)

/-- The kind of event, if the property `name` is a text. -/
def name? (e : Event) : Option String := (e.get? "name").bind Value.text?

end Event

end EventFold
