import EventFold.Number.Layout
import EventFold.Number.Numeral
import EventFold.Text.Quoted

/-!
# Values

A value is what every expression yields and what events, variables and aggregators hold. Equality of
values as the `=` operator and change detection see it is `Value.agrees`, which compares numbers as
numbers; equality of Lean (`=`) tells `0` from `-0` and takes NaN to equal itself.
-/

namespace EventFold

inductive Value where
  | null
  | bool (b : Bool)
  | number (x : Number)
  | text (s : String)
deriving DecidableEq, Inhabited

namespace Value

/-- Whether the value counts as true: all but null, false, the zeros, NaN and the empty text. -/
def truthy : Value → Bool
  | null => false
  | bool b => b
  | number x => !(x == 0) && !x.isNaN
  | text s => !s.isEmpty

def toNumber? : Value → Option Number
  | number x => some x
  | text s => Number.ofText? s
  | _ => none

def number? : Value → Option Number
  | number x => some x
  | _ => none

def text? : Value → Option String
  | text s => some s
  | _ => none

def isNull : Value → Bool
  | null => true
  | _ => false

/-- Equality with numbers compared as numbers: the zeros agree, NaN agrees with nothing. -/
def agrees : Value → Value → Bool
  | null, null => true
  | bool a, bool b => a == b
  | number x, number y => x == y
  | text s, text t => s == t
  | _, _ => false

def typeName : Value → String
  | null => "null"
  | bool _ => "boolean"
  | number _ => "number"
  | text _ => "string"

def display : Value → String
  | null => "null"
  | bool b => if b then "true" else "false"
  | number x => String.ofList (Layout.plain.render x)
  | text s => s

/-- The value as a message shows one that was refused: its kind, then its content. -/
def shown : Value → String
  | null => "Null"
  | bool b => "Bool(" ++ (if b then "true" else "false") ++ ")"
  | number x => "Number(" ++ String.ofList (Layout.shown.render x) ++ ")"
  | text s => "Str(" ++ Text.quote s ++ ")"

end Value

end EventFold
