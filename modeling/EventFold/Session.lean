import EventFold.Config.Basic
import EventFold.Engine.Saving
import EventFold.Engine.Update
import EventFold.Event.Reading
import EventFold.Text.Lines

/-!
# Sessions

A session is an engine under a configuration. Events that do not match the catalog are told of and taken
all the same. Of an event log every line that is no event, and every event whose evaluation fails, is told
of and counted; only a line that is no text stops the log.

What a session reads from files it is given as their bytes, or as the reason why there are none.
-/

namespace EventFold

structure Session where
  engine : Engine
  catalog : Catalog

structure Tally where
  /-- The events, those whose evaluation failed included. -/
  events : Nat
  /-- The lines that are no events and the events whose evaluation failed. -/
  errors : Nat
deriving DecidableEq, Repr

namespace Session

def new (c : Config) : Session :=
  ⟨.new c.catalog.vocabulary c.maxCallDepth, c.catalog⟩

def values (s : Session) : Table Value := s.engine.values

def evaluate (s : Session) (form : Form) : Except Failure Value := s.engine.evaluate form

def readFile (path : String) (content : Except FileFault ByteArray) : Except Failure String :=
  (textOf content).mapError (.file · path)

def readSpecification (path : String) (content : Except FileFault ByteArray) :
    Except Failure Specification := do
  let text ← readFile path content
  (Specification.ofText text).mapError (.specification · text path)

def updateNotices (e : Engine) (u : Update) : Array Notice :=
  (u.rejected.map fun (name, error) => Notice.rejected name error).toArray.push
    (.applied e.aggregators.size u.changed.length u.removed.length u.rejected.length u.replayed)

def apply (s : Session) (spec : Specification) : Outcome Session Update :=
  let o := s.engine.update spec
  let told := match o.result with
    | .ok u => updateNotices o.after u
    | .error _ => #[]
  ⟨{ s with engine := o.after }, o.result, o.notices ++ told⟩

def load (s : Session) (path : String) (content : Except FileFault ByteArray) : Outcome Session Update :=
  match readSpecification path content with
  | .ok spec => s.apply spec
  | .error f => ⟨s, .error f, #[]⟩

def catalogNotices (c : Catalog) (event : Event) : List Notice :=
  if c.isEmpty then []
  else
    let kind :=
      match event.name? with
      | some name => if c.knowsEvent name then [] else [Notice.unknownEvent name]
      | none => [.namelessEvent]
    kind ++ (c.mistyped event.properties).map (Notice.mistyped event.name?)

def track (s : Session) (event : Event) : Outcome Session Unit :=
  let o := s.engine.track event
  ⟨{ s with engine := o.after }, o.result,
    (catalogNotices s.catalog event ++ [Notice.tracking event.name?]).toArray ++ o.notices⟩

structure Progress where
  session : Session
  tally : Tally
  notices : Array Notice

def Progress.blame (p : Progress) (notice : Notice) : Progress :=
  { p with tally := { p.tally with errors := p.tally.errors + 1 }, notices := p.notices.push notice }

def Progress.takeLine (p : Progress) (number : Nat) (line : String) : Progress :=
  match Event.ofLine line with
  | .error fault => p.blame (.skippedLine number fault)
  | .ok event =>
    let o := p.session.track event
    let p : Progress :=
      ⟨o.after, { p.tally with events := p.tally.events + 1 }, p.notices ++ o.notices⟩
    match o.result with
    | .ok () => p
    | .error f => p.blame (.failedLine number f)

/-- Takes in the lines of an event log, of which the first has the given number. -/
def Progress.takeLines (p : Progress) (number : Nat) : List (List UInt8) → Outcome Session Tally
  | [] => ⟨p.session, .ok p.tally, p.notices.push (.completed p.tally.events p.tally.errors)⟩
  | bytes :: rest =>
    match Text.ofBytes? bytes with
    | none => ⟨p.session, .error (.line number .notText), p.notices⟩
    | some line =>
      let line := Text.trim line.toList
      let p := if line.isEmpty then p else p.takeLine number (String.ofList line)
      p.takeLines (number + 1) rest

/-- Takes in an event log. Blanks around a line do not belong to it, and blank lines are passed over. -/
def replay (s : Session) (content : ByteArray) : Outcome Session Tally :=
  Progress.takeLines ⟨s, ⟨0, 0⟩, #[]⟩ 1 (Text.lines content.toList)

/-- Takes in the event log of a file. A directory is no more than a log whose first line cannot be read. -/
def replayFile (s : Session) (path : String) : Except FileFault ByteArray → Outcome Session Tally
  | .ok content => s.replay content
  | .error .isDirectory => ⟨s, .error (.line 1 .isDirectory), #[]⟩
  | .error fault => ⟨s, .error (.file fault path), #[]⟩

/-- Saves the states of the aggregators in a file that is at a place, if it can be; the result is where and
what is written. -/
def save {α : Type} (s : Session) (path : String) (place : Except FileFault α) :
    Outcome Session (α × String) :=
  match place with
  | .ok p => ⟨s, .ok (p, s.engine.save.text), #[.snapshotWritten path]⟩
  | .error fault => ⟨s, .error (.file fault path), #[]⟩

def restore (s : Session) (path : String) (content : Except FileFault ByteArray) : Outcome Session Nat :=
  match (do Snapshot.ofText (← readFile path content) (some path)) with
  | .error f => ⟨s, .error f, #[]⟩
  | .ok snapshot =>
    let o := s.engine.restore snapshot
    let told := match o.result with
      | .ok restored => #[Notice.snapshotRestored path restored snapshot.states.size]
      | .error _ => #[]
    ⟨{ s with engine := o.after }, o.result, o.notices ++ told⟩

end Session

end EventFold
