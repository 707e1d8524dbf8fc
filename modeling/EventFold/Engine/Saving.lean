import EventFold.Engine.Basic
import EventFold.Snapshot

/-!
# Saving and restoring

A snapshot of the engine holds the states of its aggregators. To restore it overwrites all of them: an
aggregator without a state of its kind in the snapshot is reset. Nothing is replayed.
-/

namespace EventFold.Engine

def save (e : Engine) : Snapshot := ⟨e.aggregators.map fun _ a => a.state⟩

def restored (s : Snapshot) (name : String) (a : Aggregator) : Aggregator :=
  match s.get? name with
  | some state => a.restore state
  | none => a.reset

def isSaved (s : Snapshot) (name : String) (a : Aggregator) : Bool :=
  (s.get? name).any a.fits

def restoreNotice? (s : Snapshot) (name : String) (a : Aggregator) : Option Notice :=
  match s.get? name with
  | some state => if a.fits state then none else some (.foreignState name state.kind a.kind)
  | none => none

/-- Restores a snapshot; the result is the number of aggregators that took their state from it. -/
def restore (e : Engine) (s : Snapshot) : Outcome Engine Nat where
  after := { e with aggregators := e.aggregators.map (restored s) }
  result := .ok (e.aggregators.entries.countP fun (name, a) => isSaved s name a)
  notices := (e.aggregators.entries.filterMap fun (name, a) => restoreNotice? s name a).toArray

end EventFold.Engine
