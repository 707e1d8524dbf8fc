import EventFold.Text.Parts

/-!
# Files

Files and directories by their places. A place is the list of the steps that lead to it from the root. A path
is a text of steps with slashes between them; it begins at the root if a slash is in front, and else where the
work is done. The step `..` leads up, and the step `.` and one without a name stay where they are, but every
step has to be taken from a directory.
-/

namespace EventFold

abbrev Place := List String

inductive Entry where
  | file (content : ByteArray)
  /-- A file that takes whatever is written to it and holds nothing. -/
  | sink
  | directory
deriving Inhabited

inductive FileFault where
  | missing
  /-- A file is where a directory should be made. -/
  | taken
  | notDirectory
  | isDirectory
  | nameTooLong
  | nullInName
  | notText
deriving DecidableEq, Repr

def FileFault.message : FileFault → String
  | missing => "No such file or directory (os error 2)"
  | taken => "File exists (os error 17)"
  | notDirectory => "Not a directory (os error 20)"
  | isDirectory => "Is a directory (os error 21)"
  | nameTooLong => "File name too long (os error 36)"
  | nullInName => "file name contained an unexpected NUL byte"
  | notText => "stream did not contain valid UTF-8"

namespace Place

def path (p : Place) : String := String.join (p.map ("/" ++ ·))

def maxName : Nat := 255

def maxPath : Nat := 4095

def isIdle (step : String) : Bool := step.isEmpty || step == "."

/-- The place of a path that begins at a place if not at the root, and its steps from there. -/
def start (p : Place) (path : String) : Place × List String :=
  (if path.startsWith "/" then [] else p, Text.stringParts '/' path)

def through (p : Place) : List String → List Place
  | [] => [p]
  | step :: rest =>
    p :: through (if isIdle step then p else if step == ".." then p.dropLast else p ++ [step]) rest

end Place

structure Files where
  here : Place
  /-- The entries, those that were made last in front. -/
  entries : List (Place × Entry)
deriving Inhabited

namespace Files

/-- What is at a place. At the root there is always a directory. -/
def find? (f : Files) (p : Place) : Option Entry :=
  if p.isEmpty then some .directory else f.entries.lookup p

def put (f : Files) (p : Place) (e : Entry) : Files := { f with entries := (p, e) :: f.entries }

def append (f : Files) (p : Place) (bytes : ByteArray) : Files :=
  match f.find? p with
  | some (.file content) => f.put p (.file (content ++ bytes))
  | _ => f

def write (f : Files) (p : Place) (bytes : ByteArray) : Files :=
  match f.find? p with
  | none | some (.file _) => f.put p (.file bytes)
  | _ => f

/-- The place to which steps lead. Nothing needs to be there. -/
def follow (f : Files) (p : Place) : List String → Except FileFault Place
  | [] => .ok p
  | step :: rest =>
    match f.find? p with
    | none => .error .missing
    | some (.file _) | some .sink => .error .notDirectory
    | some .directory =>
      if Place.isIdle step then f.follow p rest
      else if step == ".." then f.follow p.dropLast rest
      else if Place.maxName < step.utf8ByteSize then .error .nameTooLong
      else f.follow (p ++ [step]) rest

def locate (f : Files) (path : String) : Except FileFault Place :=
  if path.isEmpty then .error .missing
  else if path.contains '\x00' then .error .nullInName
  else if Place.maxPath < path.utf8ByteSize then .error .nameTooLong
  else
    let (p, steps) := f.here.start path
    f.follow p steps

def contentAt (f : Files) (p : Place) : Except FileFault ByteArray :=
  match f.find? p with
  | none => .error .missing
  | some .directory => .error .isDirectory
  | some (.file content) => .ok content
  | some .sink => .ok .empty

def read (f : Files) (path : String) : Except FileFault ByteArray := do f.contentAt (← f.locate path)

def destination (f : Files) (path : String) : Except FileFault Place := do
  let p ← f.locate path
  match f.find? p with
  | some .directory => throw .isDirectory
  | _ => return p

/-- Makes the directories that steps lead through, if they are not there. As long as nothing is missing the
steps are taken as one path, in which a file leads nowhere. Once a directory had to be made, every further
step has a directory made for itself, in whose way a file is. -/
def makeDirectories (f : Files) (p : Place) (made : Bool) : List String → Except FileFault (Files × Place)
  | [] => .ok (f, p)
  | step :: rest =>
    if step == ".." then f.makeDirectories p.dropLast made rest
    else if Place.maxName < step.utf8ByteSize then .error .nameTooLong
    else
      let next := p ++ [step]
      match f.find? next with
      | some .directory => f.makeDirectories next made rest
      | some (.file _) | some .sink => .error (if made || rest.isEmpty then .taken else .notDirectory)
      | none => (f.put next .directory).makeDirectories next true rest

end Files

def textOf (content : Except FileFault ByteArray) : Except FileFault String := do
  match String.fromUTF8? (← content) with
  | some text => return text
  | none => throw .notText

theorem Files.find?_put_self (f : Files) {p : Place} (e : Entry) (h : p ≠ []) :
    (f.put p e).find? p = some e := by
  simp [find?, put, h]

theorem Files.find?_put_of_ne (f : Files) {p q : Place} (e : Entry) (h : q ≠ p) :
    (f.put p e).find? q = f.find? q := by
  simp [find?, put, List.lookup_cons, beq_false_of_ne h]

end EventFold
