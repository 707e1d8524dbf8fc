import EventFold.Aggregator.Basic
import EventFold.Notice

/-!
# The engine

The engine holds the log of events, the tables that expressions are evaluated against and the registry
of aggregators. An event goes through the aggregators one by one in the order of the registry: each
sees those before it as they are after the event and itself and those behind it as they were.

An evaluation that fails stops the event where it is. The aggregators before keep their new states, and
the event stays in the log.
-/

namespace EventFold

/-- What a step yields: what it leaves, also when it fails, its result and what it told on the way. -/
structure Outcome (σ α : Type) where
  after : σ
  result : Except Failure α
  notices : Array Notice

def Outcome.andThen {σ α β : Type} (o : Outcome σ α) (next : σ → α → Outcome σ β) :
    Outcome σ β :=
  match o.result with
  | .error f => ⟨o.after, .error f, o.notices⟩
  | .ok a =>
    let p := next o.after a
    { p with notices := o.notices ++ p.notices }

structure Engine where
  names : Vocabulary
  limit : Nat
  events : Array Event
  vars : Table Value
  functions : Table Expr
  aggregators : Table Aggregator

def Aggregator.values (registry : Table Aggregator) : Table Value :=
  registry.map fun _ a => a.value

structure Pass where
  registry : Table Aggregator
  stack : CallStack
  error : Option EvalError
  notices : Array Notice

namespace Pass

def notices? (a : Aggregator) : Move → Array Notice
  | .refused state value => #[.refusedMove a.name state value]
  | _ => #[]

/-- Sends the event of a scope through the aggregators of the given names, up to the first failure. The
aggregators of the scope are those of the pass as it goes on. -/
def throughNames (scope : Scope) : List String → Pass → Pass
  | [], p => p
  | name :: rest, p =>
    match p.registry.get? name with
    | none => throughNames scope rest p
    | some a =>
      match (a.move { scope with aggregators := Aggregator.values p.registry }).run.run p.stack with
      | (.error e, stack) => { p with stack, error := some e }
      | (.ok m, stack) =>
        throughNames scope rest
          { p with
            registry := p.registry.modify name (·.moved m)
            stack
            notices := p.notices ++ notices? a m }

def result (p : Pass) : Except Failure Unit :=
  match p.error with
  | some e => .error (.evaluation e)
  | none => .ok ()

end Pass

namespace Engine

def new (names : Vocabulary) (limit : Nat) : Engine := ⟨names, limit, #[], ∅, ∅, ∅⟩

def scope (e : Engine) (event : Option Event) : Scope :=
  ⟨event, e.vars, Aggregator.values e.aggregators, e.functions⟩

def values (e : Engine) : Table Value := Aggregator.values e.aggregators

/-- Sends an event through all aggregators of a pass, with no call under way. -/
def passEvent (e : Engine) (event : Event) (p : Pass) : Pass :=
  Pass.throughNames (e.scope (some event)) p.registry.keys p

def passEvents (e : Engine) : List Event → Pass → Pass
  | [], p => p
  | event :: rest, p =>
    let p := e.passEvent event { p with stack := .empty e.limit }
    match p.error with
    | some _ => p
    | none => e.passEvents rest p

def begin (e : Engine) (registry : Table Aggregator) : Pass :=
  ⟨registry, .empty e.limit, none, #[]⟩

def track (e : Engine) (event : Event) : Outcome Engine Unit :=
  let p := e.passEvent event (e.begin e.aggregators)
  ⟨{ e with events := e.events.push event, aggregators := p.registry }, p.result, p.notices⟩

def replay (e : Engine) : Outcome Engine Unit :=
  let p := e.passEvents e.events.toList (e.begin (e.aggregators.map fun _ a => a.reset))
  let done : Array Notice :=
    if p.error.isNone then #[.replayed e.events.size e.aggregators.size] else #[]
  ⟨{ e with aggregators := p.registry }, p.result, p.notices ++ done⟩

def evaluate (e : Engine) (form : Form) : Except Failure Value := do
  let expr ← (form.toExpr e.names).mapError (.form · none)
  (expr.run (e.scope e.events.back?) (.empty e.limit)).1.mapError .evaluation

end Engine

end EventFold
