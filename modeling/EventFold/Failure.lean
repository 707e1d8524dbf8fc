import EventFold.Eval.CallStack
import EventFold.Expr.Reading
import EventFold.Files
import EventFold.Json.Reader
import EventFold.Wording

/-!
# Failures

What makes an operation fail, with the code, the reason and the place that a message tells.
-/

namespace EventFold

inductive Failure where
  /-- A form that is no expression; the body of a function if one is named. -/
  | form (error : FormError) (function : Option String)
  | evaluation (error : EvalError)
  /-- A text that is no snapshot, from a file if one is named. -/
  | snapshot (fault : Json.Fault) (text : String) (path : Option String)
  | specification (fault : Json.Fault) (text path : String)
  /-- A line of an event log that is no text or cannot be read. -/
  | line (number : Nat) (fault : FileFault)
  | file (fault : FileFault) (path : String)
deriving DecidableEq

namespace Failure

variable [Wording]

def code : Failure → Nat
  | form .. => 1001
  | evaluation _ => 1002
  | snapshot .. => 1003
  | specification .. => 2001
  | line .. => 2002
  | file .. => 201

def reason : Failure → String
  | form e _ => "specification error: " ++ e.message
  | evaluation e => "evaluation error: " ++ e.message
  | snapshot .. => "snapshot error"
  | specification .. => "bootstrap error"
  | line .. => "replay error"
  | file .. => "system error"

def place? : Failure → Option String
  | form .. => none
  | evaluation _ => none
  | snapshot _ _ path => path
  | specification _ _ path => some path
  | line number _ => some ("line " ++ toString number)
  | file _ path => some path

def details? : Failure → Option String
  | form _ function => function.map fun name => "function " ++ Text.quote name
  | evaluation _ => none
  | snapshot _ text _ => some ("decode: " ++ Wording.snapshot text)
  | specification _ text _ => some (Wording.specification text)
  | line _ fault => some fault.message
  | file fault _ => some fault.message

def headline (f : Failure) : String :=
  "[" ++ toString f.code ++ "] " ++ f.reason ++
    (f.place?.map ("\n  -> At: " ++ ·)).getD ""

def message (f : Failure) : String :=
  f.headline ++ (f.details?.map ("\n  -> Details: " ++ ·)).getD ""

end Failure

end EventFold
