import EventFold.Command.LogFile
import EventFold.Config.Basic
import EventFold.Log.Line

/-!
# Reports of commands

A command is given files and leaves a report of all that is to be written: the output, the error stream, a log
file and one further file.
-/

namespace EventFold

inductive CommandFault where
  | noConfig (path : String) (fault : FileFault)
  | unreadConfig (path : String) (fault : FileFault)
  | config (fault : ConfigFault)
  | logFilter (directives : String)
  /-- A piece of a directive would begin or end within a character. -/
  | tornDirective
  | logFile (fault : LogFileFault)
deriving DecidableEq

namespace CommandFault

variable [Wording]

def message : CommandFault → String
  | noConfig path fault => "config path '" ++ path ++ "': " ++ fault.message
  | unreadConfig path fault => "failed to read " ++ path ++ ": " ++ fault.message
  | config fault => fault.message
  | logFilter directives => "invalid log filter '" ++ directives ++ "': " ++ Wording.directives directives
  | tornDirective => Wording.tornDirective
  | logFile fault => fault.message

/-- Whether the command ends where the fault comes up, and not by its own account. -/
def isAbrupt : CommandFault → Bool
  | tornDirective => true
  | logFile .unopened => true
  | _ => false

def exitCode (fault : CommandFault) : Nat := if fault.isAbrupt then 101 else 1

def closing (fault : CommandFault) : String :=
  if fault.isAbrupt then fault.message else "Error: " ++ fault.message ++ "\n"

end CommandFault

/-- A line on the error stream: a record, or a text with its own line ends. -/
inductive ErrorLine where
  | record (record : Log.Record)
  | text (text : String)
deriving DecidableEq

structure Report where
  exitCode : Nat
  output : String
  errors : List ErrorLine
  format : LogFormat
  /-- The files when all is set up: the log file is open. -/
  files : Files
  /-- The place of the file to which all records go too. -/
  logFile : Option Place
  written : Option (Place × String)

namespace Report

def line (r : Report) (coloured : Bool) (time : String) (record : Log.Record) : String :=
  match r.format with
  | .plain => record.plainLine coloured time
  | .json => record.jsonLine time

def errorText (r : Report) (coloured : Bool) (time : String) : String :=
  String.join (r.errors.map fun
    | .record record => r.line coloured time record
    | .text text => text)

def logText (r : Report) (time : String) : String :=
  String.join (r.errors.filterMap fun
    | .record record => some (r.line false time record)
    | .text _ => none)

def left (r : Report) (time : String) : Files :=
  let logged := match r.logFile with
    | some p => r.files.append p (r.logText time).toUTF8
    | none => r.files
  match r.written with
  | some (p, text) => logged.write p text.toUTF8
  | none => logged

def failed [Wording] (files : Files) (fault : CommandFault) : Report :=
  ⟨fault.exitCode, "", [.text fault.closing], .plain, files, none, none⟩

def behind (r : Report) (lines : List ErrorLine) : Report := { r with errors := lines ++ r.errors }

end Report

end EventFold
