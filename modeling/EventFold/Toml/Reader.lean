import EventFold.Toml.Scalars
import EventFold.Toml.Strings

/-!
# Reading TOML texts

A text is a sequence of lines: entries, and headers that open the table for the entries behind them.
Arrays and tables between brackets may go on over several lines, with a comma behind the last element if
one likes.
-/

namespace EventFold.Toml

abbrev Reader := StateT (List Char) Option

def maxNesting : Nat := 80

def maxKeyParts : Nat := 80

def dropGap (inComment : Bool) : List Char → List Char
  | [] => []
  | c :: s =>
    if c == '\n' then dropGap false s
    else if c == '\r' && s.head? = some '\n' then dropGap inComment s
    else if inComment then if isPlain c then dropGap true s else c :: s
    else if isBlank c then dropGap false s
    else if c == '#' then dropGap true s
    else c :: s

namespace Reader

variable {α σ : Type}

def take (f : List Char → Option (α × List Char)) : Reader α := f

def blanks : Reader Unit := modify (·.dropWhile isBlank)

def gap : Reader Unit := modify (dropGap false)

def look : Reader (Option Char) := do return (← get).head?

def mark (c : Char) : Reader Unit := take fun s => (past? c s).map ((), ·)

def keyPart : Reader String := do
  match ← look with
  | some '"' => mark '"'; return String.ofList (← take (basic? 0))
  | some '\'' => mark '\''; return String.ofList (← take literal?)
  | _ => do
    let (part, rest) := (← get).span fun c => c.isAlphanum || c == '_' || c == '-'
    guard (!part.isEmpty)
    set rest
    return String.ofList part

def keyParts (room : Nat) : Reader (List String) := do
  blanks
  match room, ← look with
  | 0, some '.' => failure
  | room + 1, some '.' => do
    mark '.'
    blanks
    return (← keyPart) :: (← keyParts room)
  | _, _ => return []

def key : Reader (List String × String) := do
  let first ← keyPart
  let parts := first :: (← keyParts (maxKeyParts - 1))
  return (parts.dropLast, parts.getLastD first)

/-- The elements of a bracket up to its end, gathered one after the other. Every element takes at least one
character, so their number is bounded. -/
def elements (close : Char) (element : σ → Reader σ) : Nat → σ → Reader σ
  | 0, _ => failure
  | bound + 1, gathered => do
    gap
    if (← look) = some close then
      mark close
      return gathered
    else
      let gathered ← element gathered
      gap
      if (← look) = some ',' then
        mark ','
        elements close element bound gathered
      else
        mark close
        return gathered

/-- An entry, put into entries by its key; what may stand around its equals sign is passed over. -/
def entry (space : Reader Unit) (value : Reader Toml)
    (put : List String → String → Toml → Entries → Option Entries) (entries : Entries) :
    Reader Entries := do
  let (path, last) ← key
  space
  mark '='
  space
  put path last (← value) entries

def value : Nat → Reader Toml
  | room, s => (do
    match room, ← look with
    | _, some '"' => return .text (String.ofList (← take string?))
    | _, some '\'' => return .text (String.ofList (← take string?))
    | 0, some '[' => failure
    | 0, some '{' => failure
    | room + 1, some '[' => do
      mark '['
      let items ← elements ']' (fun done => do return (← value room) :: done) ((← get).length + 1) []
      return .array items.reverse
    | room + 1, some '{' => do
      mark '{'
      return .table .inline (← elements '}' (entry gap (value room) assign) ((← get).length + 1) [])
    | _, _ => do
      let (word, rest) := splitWord (← get)
      set rest
      ofWord? word : Reader Toml) s

def lineEnd : Reader Unit := do
  blanks
  if (← look) = some '#' then modify (·.dropWhile isPlain)
  let s ← get
  guard (s.isEmpty || beginsLine s)

structure Draft where
  root : Entries
  header : List String

def header (draft : Draft) : Reader Draft := do
  mark '['
  let repeated := (← look) = some '['
  if repeated then mark '['
  blanks
  let (path, last) ← key
  mark ']'
  if repeated then mark ']'
  let root ← if repeated then openRepeated path last draft.root else openTable path last draft.root
  return ⟨root, path ++ [last]⟩

def lines : Nat → Draft → Reader Entries
  | 0, _ => failure
  | bound + 1, draft => do
    gap
    match ← look with
    | none => return draft.root
    | some '[' =>
      let draft ← header draft
      lineEnd
      lines bound draft
    | some _ =>
      let root ← entry blanks (value maxNesting) (assignUnder draft.header) draft.root
      lineEnd
      lines bound { draft with root }

end Reader

/-- The entries of a text. A byte order mark at its beginning is passed over. -/
def ofText? (text : String) : Option Entries :=
  let s := text.toList
  let s := if s.head? = some '\uFEFF' then s.tail else s
  ((Reader.lines (s.length + 1) ⟨[], []⟩).run s).map Prod.fst

end EventFold.Toml
