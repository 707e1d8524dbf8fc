import EventFold.Aggregator.State
import EventFold.Failure
import EventFold.Json.Writer

/-!
# Snapshots

A snapshot holds the states of aggregators under their names. Each state is written as an object of its
kind and content; it is read from such an object, with the two in either order and other members passed
over, or from an array of the two.
-/

namespace EventFold

open Json (Fault Reader)
open Json.Reader

namespace State

def content : State → Json
  | selected v => v.toJson
  | reached steps => .number (.integer steps.toNat)
  | standing state => .number (.real state)

def toJson (s : State) : Json :=
  .object [("kind", .text s.kind.tag), ("state", s.content)]

/-- The state of a kind that a tree is the content of. A funnel counts in words of 64 bits. -/
def ofContent? (kind : AggregatorKind) (j : Json) : Option State :=
  match kind, j with
  | .selectIf, j => j.value?.map selected
  | .funnel, .number (.integer n) =>
    if 0 ≤ n && n ≤ Json.maxWord then some (reached (UInt64.ofNat n.toNat)) else none
  | .stateMachine, .number n => some (standing n.toNumber)
  | _, _ => none

def ofContent (kind : AggregatorKind) (j : Json) : Reader State :=
  match ofContent? kind j with
  | some s => return s
  | none => misshapen

def readTag : Reader AggregatorKind := do
  match AggregatorKind.ofTag? (← take (Json.string? .kept)) with
  | some kind => return kind
  | none => misshapen

/-- Reads a kind of an object: its tag, or an object of the tag and null. -/
def readKind : Reader AggregatorKind := do
  match ← look with
  | '"' =>
    mark '"'
    readTag
  | '{' =>
    mark '{'
    mark '"'
    let kind ← readTag
    mark ':'
    if (← look) != 'n' then misplaced
    word "null"
    mark '}'
    return kind
  | _ => malformed

/-- Reads the content of a state of a known kind. Only that of a selection is read to its end in any case. -/
def readContent (room : Nat) (kind : AggregatorKind) : Reader State := do
  match kind, ← look with
  | .selectIf, _ => ofContent kind (← Reader.value room)
  | _, '[' => misshapen
  | _, '{' => misshapen
  | _, _ => ofContent kind (← scalar)

inductive Draft where
  | blank
  | kind (kind : AggregatorKind)
  /-- Content that waits for its kind. -/
  | content (content : Json)
  | done (state : State)

/-- Reads what stands behind a key. Kind and content may each come once. -/
def readMember (room : Nat) (draft : Draft) (key : String) : Reader Draft := do
  if key == "kind" then
    match draft with
    | .blank => return .kind (← field readKind)
    | .content j => return .done (← ofContent (← field readKind) j)
    | _ => misshapen
  else if key == "state" then
    match draft with
    | .blank => return .content (← field (Reader.value room))
    | .kind kind => return .done (← field (readContent room kind))
    | _ => misshapen
  else
    field ignored
    return draft

def readElement (room : Nat) (draft : Draft) : Reader Draft := do
  match draft with
  | .blank =>
    if (← look) != '"' then misplaced
    mark '"'
    return .kind (← readTag)
  | .kind kind => return .done (← readContent room kind)
  | _ => malformed

def read (room : Nat) : Reader State := do
  let draft ←
    match ← look with
    | '[' => bracket '[' ']' (readElement room) .blank
    | _ => object (readMember room) .blank
  match draft with
  | .done s => return s
  | _ => misshapen

def ofText (text : String) : Except Fault State :=
  whole (read (Json.maxNesting - 1)) text

end State

/-- States under the names of their aggregators. -/
structure Snapshot where
  states : Table State
deriving DecidableEq, Inhabited

namespace Snapshot

def empty : Snapshot := ⟨∅⟩

def get? (s : Snapshot) (name : String) : Option State := s.states.get? name

def toJson (s : Snapshot) : Json :=
  .object (s.states.entries.map fun e => (e.1, e.2.toJson))

def text (s : Snapshot) : String := s.toJson.spread

def read : Reader Snapshot := do
  return ⟨← table (State.read (Json.maxNesting - 2))⟩

def ofText (text : String) (path : Option String) : Except Failure Snapshot :=
  match whole read text with
  | .ok s => .ok s
  | .error fault => .error (.snapshot fault text path)

end Snapshot

end EventFold
