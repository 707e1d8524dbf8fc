import EventFold.Json.Numeral
import EventFold.Json.Quoted
import EventFold.Table

/-!
# Reading JSON texts

A reader takes what it reads from the front of a text and leaves the rest. Texts are read once, from
left to right, and refused at the first fault, so of several faults the leftmost is the one that counts.

Brackets are nested to a limit, the room of a reader. A value that is ignored has no such limit.
-/

namespace EventFold

namespace Json

inductive Fault where
  /-- The text breaks the grammar, ends early, nests too deeply or has a number beyond all finite ones. -/
  | malformed
  /-- What has been read so far is in order, but not of the shape that is asked for. -/
  | misshapen
deriving DecidableEq, Repr

/-- Takes a part of a text and leaves the rest. -/
abbrev Reader := StateT (List Char) (Except Fault)

def maxNesting : Nat := 127

def isBlank (c : Char) : Bool := c == ' ' || c == '\t' || c == '\n' || c == '\r'

namespace Reader

variable {α σ : Type}

def malformed : Reader α := throw .malformed

def misshapen : Reader α := throw .misshapen

def next : Reader Char := fun s =>
  match s.dropWhile isBlank with
  | [] => .error .malformed
  | c :: rest => .ok (c, rest)

def look : Reader Char := fun s =>
  match s.dropWhile isBlank with
  | [] => .error .malformed
  | c :: rest => .ok (c, c :: rest)

def take (f : List Char → Option (α × List Char)) : Reader α := fun s =>
  match f s with
  | some r => .ok r
  | none => .error .malformed

def word (w : String) : Reader Unit :=
  take fun s => (Text.after? w.toList s).map ((), ·)

def mark (c : Char) : Reader Unit := do
  if (← next) != c then malformed

/-- The elements of a bracket up to its end, gathered one after the other; the first is at hand. Every
element takes at least one character, so their number is bounded. -/
def elements (close : Char) (element : σ → Reader σ) : Nat → σ → Reader σ
  | 0, _ => malformed
  | bound + 1, gathered => do
    let gathered ← element gathered
    let c ← next
    if c == ',' then elements close element bound gathered
    else if c == close then return gathered
    else malformed

def bracket (opening close : Char) (element : σ → Reader σ) (start : σ) : Reader σ := do
  mark opening
  if (← look) == close then
    mark close
    return start
  else elements close element (← get).length start

def array (element : Reader α) : Reader (List α) := do
  return (← bracket '[' ']' (fun done => do return (← element) :: done) []).reverse

/-- An object, gathered member by member. Behind the key stands the colon, for `member` to take. -/
def members (member : σ → String → Reader σ) (start : σ) : Reader σ :=
  bracket '{' '}' (fun gathered => do
    mark '"'
    member gathered (← take (string? .kept))) start

def field (value : Reader α) : Reader α := do
  mark ':'
  value

def numeral : Reader Numeral := do
  match (← take literal?).numeral? with
  | some n => return n
  | none => malformed

def scalar : Reader Json := do
  match ← look with
  | 'n' => word "null"; return .null
  | 't' => word "true"; return .bool true
  | 'f' => word "false"; return .bool false
  | '"' => mark '"'; return .text (← take (string? .kept))
  | _ => return .number (← numeral)

def valueOr (array object : Reader Json) : Reader Json := do
  match ← look with
  | '[' => array
  | '{' => object
  | _ => scalar

def value : Nat → Reader Json
  | 0, s => valueOr malformed malformed s
  | room + 1, s =>
    valueOr (do return .array (← array (value room)))
      (do return .object (← members (fun done key => do
        return (key, ← field (value room)) :: done) []).reverse) s

def ignoredScalar : Reader Unit := do
  match ← look with
  | 'n' => word "null"
  | 't' => word "true"
  | 'f' => word "false"
  | '"' => mark '"'; discard (take (string? .ignored))
  | _ => discard (take literal?)

def ignoredWithin : Nat → Reader Unit
  | 0, _ => .error .malformed
  | room + 1, s => (do
    match ← look with
    | '[' => bracket '[' ']' (fun _ => ignoredWithin room) ()
    | '{' =>
      bracket '{' '}' (fun _ => do
        mark '"'
        discard (take (string? .ignored))
        field (ignoredWithin room)) ()
    | _ => ignoredScalar : Reader Unit) s

/-- A value that is passed over. It need only keep to the grammar; the text has room for all its brackets. -/
def ignored : Reader Unit := do
  ignoredWithin (← get).length

/-- The fault of a value that stands in the place of something else. One without parts is read first. -/
def misplaced : Reader α := do
  match ← look with
  | '[' => misshapen
  | '{' => misshapen
  | _ => do
    discard scalar
    misshapen

def shaped (f : Json → Option α) (room : Nat) : Reader α := do
  match f (← value room) with
  | some a => return a
  | none => misshapen

def object (member : σ → String → Reader σ) (start : σ) : Reader σ := do
  match ← look with
  | '{' => members member start
  | _ => misplaced

def table (item : Reader α) : Reader (Table α) :=
  object (fun t key => do return t.insert key (← field item)) ∅

def whole (reader : Reader α) (text : String) : Except Fault α := do
  let (a, rest) ← reader.run text.toList
  if rest.all isBlank then return a else throw .malformed

end Reader

def ofText (text : String) : Except Fault Json :=
  Reader.whole (Reader.value maxNesting) text

def shapedText {α : Type} (f : Json → Option α) (text : String) : Except Fault α :=
  Reader.whole (Reader.shaped f maxNesting) text

def tableText {α : Type} (f : Json → Option α) (text : String) : Except Fault (Table α) :=
  Reader.whole (Reader.table (Reader.shaped f (maxNesting - 1))) text

end Json

def Value.ofText (text : String) : Except Json.Fault Value := Json.shapedText Json.value? text

def Form.ofText (text : String) : Except Json.Fault Form := Json.shapedText Json.form? text

end EventFold
