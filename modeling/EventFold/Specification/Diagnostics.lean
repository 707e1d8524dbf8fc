import EventFold.Aggregator.Rule
import EventFold.Specification

/-!
# Diagnostics

A check reads every function and every aggregator of a specification and reports all that are none,
functions first, each section in the order of the document.
-/

namespace EventFold

/-- An entry of a specification that is not what its section wants. -/
structure Diagnostic where
  part : Specification.Section
  name : String
  error : FormError
deriving DecidableEq

def Diagnostic.message (d : Diagnostic) : String :=
  "error: " ++ d.part.key ++ "." ++ d.name ++ ": " ++ d.error.message

namespace Specification

def refused {α : Type} (part : Section) (read : Form → Except FormError α) (entries : Table Form) :
    List Diagnostic :=
  entries.entries.filterMap fun (name, form) =>
    match read form with
    | .ok _ => none
    | .error error => some ⟨part, name, error⟩

def diagnostics (names : Vocabulary) (s : Specification) : List Diagnostic :=
  refused .functions (Form.toExpr names) s.functions ++
    refused .aggregators (Form.toRule names) s.aggregators

end Specification

end EventFold
