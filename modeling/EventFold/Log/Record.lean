import EventFold.Text.Quoted

/-!
# Log records

A record has a level, the module it comes from, a message and named fields. Records of the session and
of the commands also have a domain.
-/

namespace EventFold.Log

/-- How grave a record is, the gravest first. -/
inductive Level where
  | error
  | warn
  | info
  | debug
  | trace
deriving DecidableEq, Repr

namespace Level

def name : Level → String
  | error => "ERROR"
  | warn => "WARN"
  | info => "INFO"
  | debug => "DEBUG"
  | trace => "TRACE"

/-- How much is let through at a level: everything up to it. -/
def rank : Level → Nat
  | error => 1
  | warn => 2
  | info => 3
  | debug => 4
  | trace => 5

end Level

inductive Content where
  | text (s : String)
  /-- A text that stands for itself in plain lines. -/
  | plain (s : String)
  | count (n : Nat)
  | flag (b : Bool)
deriving DecidableEq, Repr

def Content.bare : Content → String
  | text s => s
  | plain s => s
  | count n => toString n
  | flag b => if b then "true" else "false"

structure Record where
  level : Level
  target : String
  domain : Option String
  message : String
  fields : List (String × Content)
deriving DecidableEq, Repr

end EventFold.Log
