import EventFold.Json.Quoted
import EventFold.Number.Numeral
import EventFold.Text.Alphanumeric

/-!
# Patterns

A pattern is a regular expression. A directive may ask for a field whose value matches one. All that is
stated here is which texts are patterns, not what matches them: records are made outside of spans, so no
value is ever compared.

A pattern is to be matched byte by byte and without tables of characters. At first its signs stand for
characters; then nothing may be asked of them that only a table could tell, such as which of them are
letters, where words end or which differ by case alone. Behind the flag `-u` signs stand for bytes; then all
that is within ASCII may be asked, but nothing that would match a part of a character. A pattern stands
between braces, so none can close a count: nothing is repeated a number of times.
-/

namespace EventFold.Log.Pattern

/-- How high a pattern may be, counted in classes, groups, repetitions and rows of more than one item that
stand one in the other. -/
def maxHeight : Nat := 250

structure Mode where
  wide : Bool
  foldsCase : Bool
  spaced : Bool
deriving DecidableEq, Repr

namespace Mode

def initial : Mode := ⟨true, false, false⟩

def flags : List Char := "imsURux".toList

/-- Whether a text is a list of flags: each is given once, those behind a hyphen are taken away, and one at
least is. -/
def areFlags (s : List Char) : Bool :=
  s.Nodup && s.all ('-' :: flags).contains && s.getLast? != some '-'

def changedBy (m : Mode) (s : List Char) : Mode :=
  let (given, taken) := s.span (· != '-')
  let now (flag : Char) (before : Bool) : Bool := given.contains flag || before && !taken.contains flag
  ⟨now 'u' m.wide, now 'i' m.foldsCase, now 'x' m.spaced⟩

/-- What follows blanks and comments. A comment begins with a number sign and ends with its line. -/
def dropSpace (inComment : Bool) : List Char → List Char
  | [] => []
  | c :: s =>
    if inComment then dropSpace (c != '\n') s
    else if c == '#' then dropSpace true s
    else if Text.isBlank c then dropSpace false s
    else c :: s

def skip (m : Mode) (s : List Char) : List Char := if m.spaced then dropSpace false s else s

def peek? (m : Mode) (s : List Char) : Option Char :=
  if m.spaced then
    match s.dropWhile Text.isBlank with
    | '#' :: s => (s.dropWhile Text.isBlank).head?
    | s => s.head?
  else s.head?

end Mode

inductive Sign where
  /-- A character; it may be given by the number of a byte. -/
  | literal (c : Char) (byNumber : Bool)
  | any
  | edge
  | wordEdge
  /-- The digits, the blanks or the characters of words, or all but these. -/
  | shorthand (negated : Bool)
deriving DecidableEq, Repr

namespace Sign

def isFit (m : Mode) : Sign → Bool
  | literal c byNumber => if m.wide then !m.foldsCase else !byNumber || c.toNat < 0x80
  | any => m.wide
  | edge => true
  | wordEdge => !m.wide
  | shorthand negated => !m.wide && !negated

def isMember (m : Mode) : Sign → Bool
  | literal c _ => if m.wide then !m.foldsCase else c.toNat < 0x80
  | shorthand negated => !m.wide && !negated
  | _ => false

end Sign

def number? (m : Mode) : Nat → Nat → List Char → Option (Nat × List Char)
  | 0, n, s => some (n, m.skip s)
  | width + 1, n, s =>
    match m.skip s with
    | [] => none
    | c :: s => do number? m width (16 * n + (← Json.hexDigit? c)) s

def numbered? (m : Mode) (width : Nat) (byNumber : Bool) (s : List Char) :
    Option (Sign × List Char) := do
  let (n, s) ← number? m width 0 s
  guard n.isValidChar
  return (.literal (Char.ofNat n) byNumber, s)

/-- The sign behind a backslash. Every character of ASCII but letters and digits stands for itself there. -/
def escaped? (m : Mode) : List Char → Option (Sign × List Char)
  | [] => none
  | c :: s =>
    match c with
    | 'x' => numbered? m 2 true s
    | 'u' => numbered? m 4 false s
    | 'U' => numbered? m 8 false s
    | 'd' | 's' | 'w' => some (.shorthand false, s)
    | 'D' | 'S' | 'W' => some (.shorthand true, s)
    | 'a' => some (.literal '\x07' false, s)
    | 't' => some (.literal '\t' false, s)
    | 'n' => some (.literal '\n' false, s)
    | 'v' => some (.literal '\x0b' false, s)
    | 'f' => some (.literal '\x0c' false, s)
    | 'r' => some (.literal '\r' false, s)
    | 'A' | 'z' => some (.edge, s)
    | 'b' | 'B' | '<' | '>' => some (.wordEdge, s)
    | c => if c.toNat < 0x80 && !c.isAlphanum then some (.literal c false, s) else none

def sign? (m : Mode) (c : Char) (s : List Char) : Option (Sign × List Char) :=
  match c with
  | '\\' => escaped? m s
  | '.' => some (.any, s)
  | '^' | '$' => some (.edge, s)
  | c => some (.literal c false, s)

structure Row where
  count : Nat
  height : Nat
deriving DecidableEq, Repr

namespace Row

def empty : Row := ⟨0, 0⟩

def add (r : Row) (height : Nat) : Row := ⟨r.count + 1, max r.height height⟩

def whole (r : Row) : Nat := if r.count ≤ 1 then r.height else r.height + 1

end Row

/-- A class that is being read: the items behind its last operator, and the height of what stands before
that. -/
structure ClassDraft where
  items : Row
  operands : Option Nat
deriving DecidableEq, Repr

namespace ClassDraft

def add (d : ClassDraft) (height : Nat) : ClassDraft := { d with items := d.items.add height }

def height (d : ClassDraft) : Nat :=
  match d.operands with
  | none => d.items.whole
  | some h => max h d.items.whole + 1

def behindOperator (d : ClassDraft) : ClassDraft := ⟨.empty, some d.height⟩

end ClassDraft

def hyphens (m : Mode) : Nat → Nat → List Char → Nat × List Char
  | 0, n, s => (n, s)
  | bound + 1, n, s =>
    match m.skip s with
    | '-' :: s => hyphens m bound (n + 1) s
    | s => (n, s)

/-- The beginning of a class behind its bracket: a circumflex negates it, and hyphens or else a closing
bracket are its first members. -/
def openClass? (m : Mode) (s : List Char) : Option (ClassDraft × List Char) := do
  let s := m.skip s
  let (negated, s) := match s with
    | '^' :: s => (true, s)
    | s => (false, s)
  guard (m.wide || !negated)
  let (n, s) := hyphens m s.length 0 s
  let (n, s) := match n, s with
    | 0, ']' :: s => (1, s)
    | n, s => (n, s)
  guard (n == 0 || (Sign.literal '-' false).isMember m)
  return (⟨⟨n, 0⟩, none⟩, s)

def classNames : List String :=
  ["alnum", "alpha", "ascii", "blank", "cntrl", "digit", "graph", "lower", "print", "punct", "space", "upper",
    "word", "xdigit"]

/-- A class given by its name between colons, from behind its bracket: whether it is negated, and what follows
it. -/
def namedClass? (s : List Char) : Option (Bool × List Char) := do
  let s ← Text.after? [':'] s
  let (negated, s) := match s with
    | '^' :: s => (true, s)
    | s => (false, s)
  let (name, s) := s.span (· != ':')
  guard (classNames.contains (String.ofList name))
  return (negated, ← Text.after? [':', ']'] s)

def isNamedMember (m : Mode) (negated : Bool) : Bool := if m.wide then !m.foldsCase else !negated

def memberSign? (m : Mode) : List Char → Option (Sign × List Char)
  | [] => none
  | '\\' :: s => escaped? m s
  | c :: s => some (.literal c false, s)

def isRange : Sign → Sign → Bool
  | .literal a _, .literal b _ => a ≤ b
  | _, _ => false

/-- What follows a member of a class or a range of them. A hyphen is no sign of a range before another hyphen
or the end of the class. -/
def pastMember? (m : Mode) (s : List Char) : Option (List Char) := do
  let (first, s) ← memberSign? m s
  guard (first.isMember m)
  match m.skip s with
  | '-' :: s =>
    if m.peek? s = some ']' || m.peek? s = some '-' then return '-' :: s
    else
      let (last, s) ← memberSign? m (m.skip s)
      guard (last.isMember m && isRange first last)
      return s
  | s => return s

/-- The height of a class and what follows it. Every item takes a character at least, so their number is
bounded. -/
def class? (m : Mode) : Nat → ClassDraft → List Char → Option (Nat × List Char)
  | 0, _, _ => none
  | bound + 1, d, s =>
    match m.skip s with
    | [] => none
    | ']' :: s => some (d.height + 1, s)
    | '&' :: '&' :: s => class? m bound d.behindOperator s
    | '-' :: '-' :: s => class? m bound d.behindOperator s
    | '~' :: '~' :: s => class? m bound d.behindOperator s
    | '[' :: s =>
      match namedClass? s with
      | some (negated, s) => if isNamedMember m negated then class? m bound (d.add 0) s else none
      | none => do
        let (inner, s) ← openClass? m s
        let (height, s) ← class? m bound inner s
        class? m bound (d.add height) s
    | s => do class? m bound (d.add 0) (← pastMember? m s)

structure GroupDraft where
  outer : Mode
  branches : Row
  items : Row
  /-- The height of the last item of the branch, if that can be repeated. -/
  last : Option Nat
deriving DecidableEq, Repr

namespace GroupDraft

def new (outer : Mode) : GroupDraft := ⟨outer, .empty, .empty, none⟩

def add (g : GroupDraft) (height : Nat) : GroupDraft :=
  { g with items := g.items.add height, last := some height }

/-- Adds a change of mode, which counts as an item but cannot be repeated. -/
def addChange (g : GroupDraft) : GroupDraft := { g with items := g.items.add 0, last := none }

def repeat? (g : GroupDraft) : Option GroupDraft :=
  g.last.map fun height =>
    { g with items.height := max g.items.height (height + 1), last := some (height + 1) }

def behindBar (g : GroupDraft) : GroupDraft :=
  { g with branches := g.branches.add g.items.whole, items := .empty, last := none }

def height (g : GroupDraft) : Nat := (g.branches.add g.items.whole).whole

end GroupDraft

structure Draft where
  mode : Mode
  names : List (List Char)
  group : GroupDraft
  around : List GroupDraft
deriving DecidableEq, Repr

namespace Draft

def new : Draft := ⟨.initial, [], .new .initial, []⟩

def enter (d : Draft) (inner : Mode) : Draft :=
  { d with mode := inner, group := .new d.mode, around := d.group :: d.around }

def leave? (d : Draft) : Option Draft :=
  match d.around with
  | [] => none
  | g :: around => some { d with mode := d.group.outer, group := g.add (d.group.height + 1), around }

def isName : List Char → Bool
  | [] => false
  | c :: s =>
    (c == '_' || Text.isLetter c) &&
      s.all fun c => Text.isAlphanumeric c || ['_', '.', '[', ']'].contains c

/-- Enters a group from behind the angle bracket of its name. No two groups have one name. -/
def enterNamed? (d : Draft) (s : List Char) : Option (Draft × List Char) := do
  let (name, s) := s.span (· != '>')
  guard (isName name && !d.names.contains name)
  return ({ d.enter d.mode with names := name :: d.names }, ← Text.after? ['>'] s)

def open? (d : Draft) (s : List Char) : Option (Draft × List Char) :=
  match d.mode.skip s with
  | '?' :: 'P' :: '<' :: s => d.enterNamed? s
  | '?' :: '<' :: s => d.enterNamed? s
  | '?' :: s => do
    let (flags, s) := s.span fun c => c != ':' && c != ')'
    guard (Mode.areFlags flags)
    match flags, s with
    | flags, ':' :: s => return (d.enter (d.mode.changedBy flags), s)
    | _ :: _, ')' :: s => return ({ d with mode := d.mode.changedBy flags, group := d.group.addChange }, s)
    | _, _ => none
  | s => some (d.enter d.mode, s)

def add (d : Draft) (height : Nat) : Draft := { d with group := d.group.add height }

def take? (d : Draft) (c : Char) (s : List Char) : Option (Draft × List Char) :=
  match c with
  | '(' => d.open? s
  | ')' => d.leave?.map (·, s)
  | '|' => some ({ d with group := d.group.behindBar }, s)
  | '\x7b' => none
  | '?' | '*' | '+' => do
    let group ← d.group.repeat?
    return ({ d with group }, if s.head? = some '?' then s.tail else s)
  | '[' => do
    let (inner, s) ← openClass? d.mode s
    let (height, s) ← class? d.mode (s.length + 1) inner s
    return (d.add height, s)
  | c => do
    let (sign, s) ← sign? d.mode c s
    guard (sign.isFit d.mode)
    return (d.add 0, s)

def isClosedBy (d : Draft) : Nat → List Char → Bool
  | 0, _ => false
  | bound + 1, s =>
    match d.mode.skip s with
    | [] => d.around.isEmpty && d.group.height ≤ maxHeight
    | c :: s =>
      match d.take? c s with
      | some (d, s) => d.isClosedBy bound s
      | none => false

end Draft

def isPattern (s : List Char) : Bool := Draft.new.isClosedBy (s.length + 1) s

def isNumber (s : List Char) : Bool :=
  (Number.numeral? s).isSome || (Number.splitSign s).2.map Char.toLower == "nan".toList

def isValue (s : List Char) : Bool := isNumber s || isPattern s

example : isPattern "a|(?:b+[^c-e&&f])*?$".toList = true := by decide +kernel

example : ["(", "a)", "*", "[b-a]", "\\d", "(?i)a", "(?-u)."].all (!isPattern ·.toList) = true := by
  decide +kernel

end EventFold.Log.Pattern
