import EventFold.Aggregator.Rule
import EventFold.Failure
import EventFold.Log.Record

/-!
# Notices

What the engine, a session and the commands tell of their work, and the log record of each notice.
-/

namespace EventFold

inductive LineFault where
  | json (line : String)
  | notObject
deriving DecidableEq, Repr

def LineFault.message [Wording] : LineFault → String
  | json line => Wording.line line
  | notObject => "event is not a JSON object"

inductive Notice where
  | replayed (events aggregators : Nat)
  | registering (name : String) (kind : AggregatorKind)
  /-- An entry is no aggregator; one that was registered under the name is gone. -/
  | dropping (name : String) (error : FormError)
  | removing (name : String)
  | unchanged
  /-- The state of a machine yielded no number. -/
  | refusedMove (name : String) (state : Number) (value : Value)
  | foreignState (name : String) (found kind : AggregatorKind)
  | rejected (name : String) (error : FormError)
  | applied (aggregators changed removed rejected : Nat) (replayed : Bool)
  | tracking (event : Option String)
  | unknownEvent (event : String)
  | namelessEvent
  | mistyped (event : Option String) (property : String)
  | skippedLine (line : Nat) (fault : LineFault)
  | failedLine (line : Nat) (failure : Failure)
  | completed (events errors : Nat)
  | snapshotWritten (file : String)
  | snapshotRestored (file : String) (restored saved : Nat)
  | snapshotLoaded (restored : Nat)
deriving DecidableEq

def shownOption : Option String → String
  | some s => "Some(" ++ Text.quote s ++ ")"
  | none => "None"

namespace Notice

open Log (Record Level Content)

def engineRecord (level : Level) (target message : String) : Record :=
  ⟨level, "agg_core::" ++ target, none, message, []⟩

def sessionRecord (level : Level) (domain message : String) (fields : List (String × Content)) : Record :=
  ⟨level, "agg_runtime::session", some domain, message, fields⟩

def record [Wording] : Notice → Record
  | replayed events aggregators =>
    engineRecord .debug "context"
      ("replayed " ++ toString events ++ " events through " ++ toString aggregators ++ " aggregators")
  | registering name kind =>
    engineRecord .debug "context::reconcile"
      ("registering aggregator " ++ Text.quote name ++ " (" ++ kind.tag ++ ")")
  | dropping name error =>
    engineRecord .warn "context::reconcile"
      ("dropping aggregator " ++ Text.quote name ++ ": " ++ error.message)
  | removing name =>
    engineRecord .debug "context::reconcile" ("removing aggregator " ++ Text.quote name)
  | unchanged =>
    engineRecord .debug "context::reconcile" "specification unchanged, keeping aggregator state"
  | refusedMove name state value =>
    engineRecord .warn "aggregator"
      ("aggregator " ++ Text.quote name ++ ": invalid transition from state " ++
        (Value.number state).display ++ " to non-numeric " ++ value.shown)
  | foreignState name found kind =>
    engineRecord .warn "context::snapshot"
      ("snapshot holds a " ++ found.tag ++ " state for " ++ kind.tag ++ " aggregator " ++
        Text.quote name ++ ", resetting")
  | rejected name error =>
    sessionRecord .warn "conf" "aggregator rejected"
      [("aggregator", .plain name), ("error", .plain error.message)]
  | applied aggregators changed removed refused again =>
    sessionRecord .info "conf" "specification applied"
      [("aggregators", .count aggregators), ("changed", .count changed), ("removed", .count removed),
       ("rejected", .count refused), ("replayed", .flag again)]
  | tracking event =>
    sessionRecord .trace "pipe" "tracking event" [("event", .plain (shownOption event))]
  | unknownEvent event => sessionRecord .warn "pipe" "event not in catalog" [("event", .text event)]
  | namelessEvent => sessionRecord .warn "pipe" "event has no name" []
  | mistyped event property =>
    sessionRecord .warn "pipe" "property type differs from catalog"
      [("event", .plain (shownOption event)), ("prop", .text property)]
  | skippedLine line fault =>
    sessionRecord .warn "pipe" "skipping malformed event"
      [("line", .count line), ("error", .plain fault.message)]
  | failedLine line failure =>
    sessionRecord .warn "pipe" "event evaluation failed"
      [("line", .count line), ("error", .plain failure.message)]
  | completed events errors =>
    sessionRecord .info "pipe" "replay complete" [("events", .count events), ("errors", .count errors)]
  | snapshotWritten file =>
    sessionRecord .debug "res" "snapshot written" [("file", .plain file)]
  | snapshotRestored file restored saved =>
    sessionRecord .debug "res" "snapshot restored"
      [("file", .plain file), ("restored", .count restored), ("saved", .count saved)]
  | snapshotLoaded restored =>
    ⟨.info, "aggregate::cmd_replay", some "res", "snapshot loaded", [("restored", .count restored)]⟩

end Notice

end EventFold
