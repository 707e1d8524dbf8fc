import EventFold.Event
import EventFold.Expr.Names

/-!
# Catalogs

A catalog declares the properties that events carry, with their types, and the kinds of events there are.
Every event carries the properties `name` and `time`, declared or not, and their types are fixed. As long
as no property is declared any may be referred to; as long as no kind of event is, any is known.
-/

namespace EventFold

inductive PropertyType where
  | string
  | number
  | boolean
deriving DecidableEq, Repr

namespace PropertyType

def all : List PropertyType := [string, number, boolean]

def word : PropertyType → String
  | string => "string"
  | number => "number"
  | boolean => "boolean"

def ofWord? (s : String) : Option PropertyType :=
  all.find? fun type => type.word == s

/-- Whether a value fits the type. Null fits every type. -/
def accepts : PropertyType → Value → Bool
  | _, .null => true
  | string, .text _ => true
  | number, .number _ => true
  | boolean, .bool _ => true
  | _, _ => false

end PropertyType

structure Catalog where
  properties : Table PropertyType
  events : Table (List String)
deriving Inhabited

namespace Catalog

def implicitProperties : List String := ["name", "time"]

def empty : Catalog := ⟨∅, ∅⟩

def isEmpty (c : Catalog) : Bool := c.properties.isEmpty && c.events.isEmpty

def type? (c : Catalog) (property : String) : Option PropertyType :=
  if property == "name" then some .string
  else if property == "time" then some .number
  else c.properties.get? property

def declares (c : Catalog) (property : String) : Bool :=
  implicitProperties.contains property || c.properties.contains property

def knowsProperty (c : Catalog) (property : String) : Bool :=
  c.properties.isEmpty || c.declares property

def knowsEvent (c : Catalog) (name : String) : Bool :=
  c.events.isEmpty || c.events.contains name

def vocabulary (c : Catalog) : Vocabulary :=
  { Vocabulary.any with property := c.knowsProperty }

def contradicts (c : Catalog) (property : String) (value : Value) : Bool :=
  (c.type? property).any fun type => !type.accepts value

/-- The properties whose values are not of their types, in the order of their names. -/
def mistyped (c : Catalog) (properties : Table Value) : List String :=
  (properties.sorted.filter fun (name, value) => c.contradicts name value).map Prod.fst

end Catalog

end EventFold
