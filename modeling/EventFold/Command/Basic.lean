import EventFold.Command.Report
import EventFold.Config.Reading
import EventFold.Log.Filter
import EventFold.Session
import EventFold.Specification.Diagnostics

/-!
# Commands

A command reads its configuration, sets up its log and then does its work: `check` reports the entries of a
specification that are none, `replay` takes an event log in and prints the values of the aggregators. What it
reads are files; what it leaves is a report of all that is to be written.
-/

namespace EventFold

/-- The files of a replay: an event log goes through a specification, from the states of one snapshot, if
there is one, and into another. -/
structure Replay where
  spec : String
  events : String
  snapshotIn : Option String
  snapshotOut : Option String
deriving DecidableEq, Repr

inductive Command where
  | check (spec : String) (config : Option String)
  | replay (job : Replay) (config : Option String)
deriving DecidableEq, Repr

namespace Replay

def restore (r : Replay) (files : Files) (s : Session) : Outcome Session Unit :=
  match r.snapshotIn with
  | none => ⟨s, .ok (), #[]⟩
  | some path =>
    (s.restore path (files.read path)).andThen fun s restored => ⟨s, .ok (), #[.snapshotLoaded restored]⟩

def save (r : Replay) (files : Files) (s : Session) : Outcome Session (Option (Place × String)) :=
  match r.snapshotOut with
  | none => ⟨s, .ok none, #[]⟩
  | some path =>
    (s.save path (files.destination path)).andThen fun s written => ⟨s, .ok (some written), #[]⟩

def work (r : Replay) (files : Files) (s : Session) :
    Outcome Session (Tally × Option (Place × String)) :=
  (s.load r.spec (files.read r.spec)).andThen fun s _ =>
    (r.restore files s).andThen fun s _ =>
      (s.replayFile r.events (files.read r.events)).andThen fun s tally =>
        (r.save files s).andThen fun s written => ⟨s, .ok (tally, written), #[]⟩

end Replay

structure Setting where
  config : Config
  filter : Log.Filter
  files : Files
  logFile : Option Place

namespace Setting

variable [Wording]

/-- A report of work under the setting: what its filter lets through of the notices comes first. -/
def report (s : Setting) (exitCode : Nat) (output : String) (notices : Array Notice) (closing : String)
    (written : Option (Place × String)) : Report :=
  let records := (notices.toList.map Notice.record).filter s.filter.admits
  ⟨exitCode, output, records.map .record ++ [.text closing], s.config.logging.format, s.files, s.logFile,
    written⟩

def check (s : Setting) (spec : String) : Report :=
  match Session.readSpecification spec (s.files.read spec) with
  | .error f => s.report 1 "" #[] ("Error: " ++ f.message ++ "\n") none
  | .ok specification =>
    match specification.diagnostics s.config.catalog.vocabulary with
    | [] =>
      let closing := "No issues found: " ++ toString specification.functions.size ++ " function(s), " ++
        toString specification.aggregators.size ++ " aggregator(s).\n"
      s.report 0 "" #[] closing none
    | diagnostics =>
      let lines := String.join (diagnostics.map fun d => d.message ++ "\n")
      s.report 1 "" #[] (lines ++ "\n" ++ toString diagnostics.length ++ " error(s)\n") none

def printed (values : Table Value) : String :=
  (Specification.tableJson Value.toJson values).spread ++ "\n"

def replay (s : Setting) (job : Replay) : Report :=
  let o := job.work s.files (.new s.config)
  match o.result with
  | .error f => s.report 1 "" o.notices ("Error: " ++ f.message ++ "\n") none
  | .ok (tally, written) =>
    let closing := "---\nReplay complete: " ++ toString tally.events ++ " events processed, " ++
      toString tally.errors ++ " errors\n"
    s.report 0 (printed o.after.values) o.notices closing written

end Setting

namespace Command

def config? : Command → Option String
  | check _ config => config
  | replay _ config => config

def readConfig (files : Files) : Option String → Except CommandFault (Config × Place)
  | none => .ok (.default, files.here)
  | some path => do
    let p ← (files.locate path).mapError (.noConfig path)
    match files.contentAt p with
    | .error .missing => throw (.noConfig path .missing)
    | content =>
      let text ← (textOf content).mapError (.unreadConfig p.path)
      return (← (Config.ofText text).mapError .config, p.dropLast)

/-- The filter of the environment in place of that of the configuration, and what it has to tell of its
directives that are not good. -/
def readFilter [Wording] (environment : Option String) (c : Config) :
    Except CommandFault (Log.Filter × List ErrorLine) :=
  match environment with
  | some text =>
    match Log.Filter.ofGood text with
    | .ok (filter, refused) =>
      .ok (filter, refused.map fun s => .text ("ignoring `" ++ s ++ "`: " ++ Wording.directives s ++ "\n"))
    | .error _ => .error .tornDirective
  | none =>
    match Log.Filter.ofText c.logging.directives with
    | .ok filter => .ok (filter, [])
    | .error .malformed => .error (.logFilter c.logging.directives)
    | .error .torn => .error .tornDirective

def openLog (files : Files) (base : Place) (c : Config) : Except CommandFault (Files × Option Place) :=
  match c.logging.file with
  | none => .ok (files, none)
  | some path => ((files.openLog base path).map fun (files, p) => (files, some p)).mapError .logFile

def paths : Command → List String
  | check spec config => config.toList ++ [spec]
  | replay job config =>
    config.toList ++ [job.spec] ++ job.snapshotIn.toList ++ [job.events] ++ job.snapshotOut.toList

def perform [Wording] (c : Command) (s : Setting) : Report :=
  match c with
  | check spec _ => s.check spec
  | replay job _ => s.replay job

/-- Runs a command. The environment may give directives in place of those of the configuration. -/
def run [Wording] (c : Command) (files : Files) (environment : Option String) : Report :=
  match readConfig files c.config? with
  | .error fault => .failed files fault
  | .ok (config, base) =>
    match readFilter environment config with
    | .error fault => .failed files fault
    | .ok (filter, complaints) =>
      match openLog files base config with
      | .error fault => (Report.failed files fault).behind complaints
      | .ok (files, logFile) => (c.perform ⟨config, filter, files, logFile⟩).behind complaints

end Command

end EventFold
