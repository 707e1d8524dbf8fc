import EventFold.Files
import EventFold.Wording

/-!
# Log files

A log file is opened before a command begins its work. The directories on the way to it are made if they are
not there, and so is the file; what a file holds already is kept. The path of a log file is taken from the
directory of the configuration.
-/

namespace EventFold

inductive LogFileFault where
  | isRoot
  /-- The path ends in a step upwards. -/
  | noName
  | directory (fault : FileFault)
  /-- At the place of the file no file can be. -/
  | unopened
deriving DecidableEq, Repr

def LogFileFault.message [Wording] : LogFileFault → String
  | isRoot => "log file path has no parent directory"
  | noName => "log file path has no file name"
  | directory fault => fault.message
  | unopened => Wording.unopenedLog

namespace Files

/-- Steps without those at the end that stay where they are. -/
def dropIdleEnd (steps : List String) : List String := (steps.reverse.dropWhile Place.isIdle).reverse

def makeLogDirectory (f : Files) (steps : List String) : Except FileFault (Files × Place) :=
  let path := "/".intercalate steps
  if path.contains '\x00' then .error .nullInName
  else if Place.maxPath < path.utf8ByteSize then .error .nameTooLong
  else f.makeDirectories [] false (steps.filter (!Place.isIdle ·))

def openLogIn (f : Files) (directory : Place) (name path : String) : Except LogFileFault (Files × Place) :=
  let p := directory ++ [name]
  if name.contains '\x00' || Place.maxName < name.utf8ByteSize || Place.maxPath < path.utf8ByteSize then
    .error .unopened
  else
    match f.find? p with
    | some .directory => .error .unopened
    | some (.file _) | some .sink => .ok (f, p)
    | none => .ok (f.put p (.file .empty), p)

/-- Opens the log file at a path that begins at a directory if not at the root. -/
def openLog (f : Files) (base : Place) (path : String) : Except LogFileFault (Files × Place) :=
  let steps := Text.stringParts '/' (if path.startsWith "/" then path else base.path ++ "/" ++ path)
  match (dropIdleEnd steps).getLast? with
  | none => .error .isRoot
  | some ".." => .error .noName
  | some name => do
    let before := dropIdleEnd (dropIdleEnd steps).dropLast
    let (f, directory) ← (f.makeLogDirectory before).mapError .directory
    f.openLogIn directory name ("/".intercalate (before ++ [name]))

end Files

end EventFold
