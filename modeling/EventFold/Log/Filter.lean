import EventFold.Log.Directive
import EventFold.Text.Parts

/-!
# Log filters

A filter is a list of directives, separated by commas. Of the directives that are about a record the most
specific one decides, of equal ones the last; a record that none is about is held back.
-/

namespace EventFold.Log

structure Filter where
  directives : List Directive
deriving DecidableEq, Repr

namespace Filter

def decisive? (f : Filter) (r : Record) : Option Directive :=
  (f.directives.filter (·.isAbout r)).foldl (fun best d => some (best.elim d (·.moreSpecific d))) none

def admits (f : Filter) (r : Record) : Bool :=
  (f.decisive? r).any fun d => d.threshold.admits r.level

/-- The texts of the directives in a text. Between two commas may be nothing. -/
def partsOf (text : String) : List String := (Text.stringParts ',' text).filter (!·.isEmpty)

/-- The filter of a text in which all directives are good. A text without any lets nothing through. -/
def ofText (text : String) : Except Directive.Fault Filter :=
  ((partsOf text).mapM Directive.ofText).map Filter.mk

def errors : Filter := ⟨[⟨none, none, false, some .error⟩]⟩

/-- The directive of a text in good form, if it is. That one of its pieces is torn cannot be passed over. -/
def good (part : String) : Except Directive.Fault (Option Directive) :=
  match Directive.ofText part with
  | .ok d => .ok (some d)
  | .error .malformed => .ok none
  | .error .torn => .error .torn

/-- The filter of the good directives in a text, or errors only if there are none, and the texts of those
that are not good. -/
def ofGood (text : String) : Except Directive.Fault (Filter × List String) := do
  let read ← (partsOf text).mapM fun part => do return (part, ← good part)
  let directives := read.filterMap Prod.snd
  return (if directives.isEmpty then errors else ⟨directives⟩, (read.filter (·.2.isNone)).map Prod.fst)

example : (ofText "warn,,agg_core=debug").toOption.map (·.directives) =
    some [⟨none, none, false, some .warn⟩, ⟨some "agg_core", none, false, some .debug⟩] := by
  decide +kernel

example : (ofText "info,agg_core=loudest").toOption = none := by decide +kernel

example : (ofGood "info,agg_core=loudest").toOption.map Prod.snd = some ["agg_core=loudest"] := by
  decide +kernel

end Filter

end EventFold.Log
