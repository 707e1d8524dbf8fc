import EventFold.Engine.Basic
import EventFold.Specification

/-!
# Taking over a specification

An update brings the engine in line with a specification. The bodies of all functions are read before
anything is touched, and one that is none fails the update. An entry that is no aggregator is dropped
and reported. An aggregator whose form is the one it was read from stays; one that changed takes its
old place, and a new one goes to the end. If variables or aggregators changed, the log is replayed.
-/

namespace EventFold

structure Update where
  variablesChanged : Bool
  /-- The aggregators that are new or read anew. -/
  changed : List String
  removed : List String
  /-- The entries that are no aggregators. -/
  rejected : List (String × FormError)
  replayed : Bool
deriving DecidableEq

def Update.none : Update := ⟨false, [], [], [], false⟩

structure Reconciliation where
  registry : Table Aggregator
  changed : List String
  removed : List String
  rejected : List (String × FormError)
  dirty : Bool
  notices : Array Notice

namespace Reconciliation

def takeOver (names : Vocabulary) (r : Reconciliation) (entry : String × Form) : Reconciliation :=
  let (name, source) := entry
  if (r.registry.get? name).any fun a => a.source.agrees source then r
  else
    match Aggregator.ofForm names name source with
    | .ok a =>
      { r with
        registry := r.registry.insert name a
        changed := r.changed ++ [name]
        dirty := true
        notices := r.notices.push (.registering name a.kind) }
    | .error e =>
      { r with
        registry := r.registry.erase name
        rejected := r.rejected ++ [(name, e)]
        dirty := r.dirty || r.registry.contains name
        notices := r.notices.push (.dropping name e) }

def remove (r : Reconciliation) (name : String) : Reconciliation :=
  { r with
    registry := r.registry.erase name
    removed := r.removed ++ [name]
    dirty := true
    notices := r.notices.push (.removing name) }

def run (names : Vocabulary) (registry : Table Aggregator) (entries : Table Form) : Reconciliation :=
  let r := entries.entries.foldl (takeOver names) ⟨registry, [], [], [], false, #[]⟩
  (r.registry.keys.filter fun name => !entries.contains name).foldl remove r

end Reconciliation

namespace Engine

/-- The bodies of functions, up to the first that is no expression. -/
def readFunctions (names : Vocabulary) : List (String × Form) → Except Failure (List (String × Expr))
  | [] => .ok []
  | (name, body) :: rest => do
    let expr ← (body.toExpr names).mapError (.form · (some name))
    return (name, expr) :: (← readFunctions names rest)

def takeOver (e : Engine) (spec : Specification) (functions : Table Expr) : Outcome Engine Update :=
  let sameVariables := e.vars.agrees Value.agrees spec.vars
  let r := Reconciliation.run e.names e.aggregators spec.aggregators
  let e :=
    { e with
      vars := if sameVariables then e.vars else spec.vars
      functions
      aggregators := r.registry }
  let update (replayed : Bool) : Update := ⟨!sameVariables, r.changed, r.removed, r.rejected, replayed⟩
  if !sameVariables || r.dirty then
    let o := e.replay
    ⟨o.after, o.result.map fun _ => update true, r.notices ++ o.notices⟩
  else ⟨e, .ok (update false), r.notices.push .unchanged⟩

def update (e : Engine) (spec : Specification) : Outcome Engine Update :=
  match readFunctions e.names spec.functions.entries with
  | .error failure => ⟨e, .error failure, #[]⟩
  | .ok functions => e.takeOver spec (.ofList functions)

end Engine

end EventFold
