import EventFold.Command.Arguments
import Std.Time.Format

/-!
# The command line

Looks up the files that a command may need, runs it and writes its report.
-/

namespace EventFold

/-- What is at a place. A file is read only if it may be needed. -/
def lookUp (needed : List Place) (p : Place) : IO (Option (Place × Entry)) := do
  try
    let path ← IO.FS.realPath p.path
    if ← path.isDir then return some (p, .directory)
    else if needed.contains p then return some (p, .file (← IO.FS.readBinFile path))
    else return some (p, .file .empty)
  catch _ => return none

def Files.lookUpAlong (files : Files) (base : Place) (path : String) (isNeeded : Bool) : IO Files := do
  let (first, steps) := base.start path
  let places := first.through steps
  let found ← places.filterMapM (lookUp (if isNeeded then places else []))
  return { files with entries := files.entries ++ found }

/-- The files that a command may need. Where its log goes is told by its configuration. -/
def Command.lookUp (c : Command) (here : Place) : IO Files := do
  let around ← (Place.through [] here).filterMapM (EventFold.lookUp [])
  let files ← c.paths.foldlM (fun files path => files.lookUpAlong here path true) ⟨here, around⟩
  match Command.readConfig files c.config? with
  | .ok (config, base) =>
    match config.logging.file with
    | some path => files.lookUpAlong base path false
    | none => return files
  | .error _ => return files

def timeStamp : IO String := do
  let now ← Std.Time.Timestamp.now
  return (Std.Time.DateTime.ofTimestampWithZone now .UTC).format "uuuu-MM-dd'T'HH:mm:ss.SSSSSS'Z'"

def Files.makeMissing (files : Files) : IO Unit :=
  files.entries.forM fun
    | (p, .directory) => unless p.isEmpty do IO.FS.createDirAll (Place.path p)
    | _ => pure ()

def Report.deliver (r : Report) (coloured : Bool) (time : String) : IO Unit := do
  IO.eprint (r.errorText coloured time)
  if let some p := r.logFile then
    r.files.makeMissing
    let file ← IO.FS.Handle.mk p.path .append
    file.putStr (r.logText time)
  if let some (p, text) := r.written then
    IO.FS.writeFile p.path text
  IO.print r.output

end EventFold

open EventFold in
def main (arguments : List String) : IO UInt32 := do
  let here := (Text.stringParts '/' (← IO.currentDir).toString).filter (!Place.isIdle ·)
  let files ← match Command.ofArguments? arguments with
    | some c => c.lookUp here
    | none => pure ⟨here, []⟩
  let environment ← IO.getEnv "RUST_LOG"
  let coloured := ((← IO.getEnv "NO_COLOR").getD "").isEmpty
  let report := Command.runArguments arguments files environment
  report.deliver coloured (← timeStamp)
  return report.exitCode.toUInt32
