import EventFold.Number.Binary

/-!
# TOML

The tree of a TOML text. Entries of a table are kept in the order of their keys.

A table remembers how it was made, since that decides what may still be added to it: a header may be given
once to a table that only headers of its sub-tables implied; dotted keys add to tables that dotted keys
made; nothing adds to a table written between braces.
-/

namespace EventFold

inductive Toml.Origin where
  | inline
  | header
  /-- By the header of a table in it. -/
  | implied
  | dotted
deriving DecidableEq, Repr

inductive Toml where
  | text (s : String)
  | integer (n : Int)
  | real (x : Number)
  /-- A number beyond the greatest or the least that can be used. -/
  | excess
  | bool (b : Bool)
  | date (s : String)
  | array (items : List Toml)
  /-- The tables of a repeated header, the last first. -/
  | tables (done : List (List (String × Toml)))
  | table (origin : Toml.Origin) (entries : List (String × Toml))
deriving Inhabited

namespace Toml

abbrev Entries := List (String × Toml)

def put (key : String) (v : Toml) : Entries → Entries
  | [] => [(key, v)]
  | e :: rest =>
    if key < e.1 then (key, v) :: e :: rest
    else if key = e.1 then (key, v) :: rest
    else e :: put key v rest

/-- Changes the table at a path below a table. Tables that are missing on the way are made with the given
origin; only tables of an origin that may be entered are entered, and of a repeated header the last. -/
def within (made : Origin) (mayEnter : Origin → Bool) (change : Origin → Entries → Option Entries) :
    List String → Origin → Entries → Option Entries
  | [], origin, entries => change origin entries
  | key :: rest, _, entries =>
    match entries.lookup key with
    | none => do
      return put key (.table made (← within made mayEnter change rest made [])) entries
    | some (.table origin inner) => do
      guard (mayEnter origin)
      return put key (.table origin (← within made mayEnter change rest origin inner)) entries
    | some (.tables (last :: before)) => do
      return put key (.tables ((← within made mayEnter change rest .header last) :: before)) entries
    | some _ => none

def addEntry (key : String) (v : Toml) (entries : Entries) : Option Entries :=
  match entries.lookup key with
  | none => some (put key v entries)
  | some _ => none

/-- Adds the entry of a key to a table. The key's last part names the entry. A dotted key makes its tables or
enters those that no header of their own and no braces made, and ends in one that dotted keys made. -/
def assign (path : List String) (key : String) (v : Toml) (entries : Entries) : Option Entries :=
  if path.isEmpty then addEntry key v entries
  else
    within .dotted (fun origin => origin = .implied || origin = .dotted)
      (fun origin entries => if origin = .dotted then addEntry key v entries else none) path .header entries

/-- Whether the headers of sub-tables and the entries behind a header may enter a table. -/
def mayExtend (origin : Origin) : Bool := origin ≠ .inline

def atHeader (path : List String) (change : Entries → Option Entries) (root : Entries) : Option Entries :=
  within .implied mayExtend (fun _ entries => change entries) path .header root

def assignUnder (header path : List String) (key : String) (v : Toml) : Entries → Option Entries :=
  atHeader header (assign path key v)

def openTable (path : List String) (key : String) : Entries → Option Entries :=
  atHeader path fun entries =>
    match entries.lookup key with
    | none => some (put key (.table .header []) entries)
    | some (.table .implied inner) => some (put key (.table .header inner) entries)
    | some _ => none

def openRepeated (path : List String) (key : String) : Entries → Option Entries :=
  atHeader path fun entries =>
    match entries.lookup key with
    | none => some (put key (.tables [[]]) entries)
    | some (.tables done) => some (put key (.tables ([] :: done)) entries)
    | some _ => none

def items? : Toml → Option (List Toml)
  | array items => some items
  | tables done => some (done.reverse.map (.table .header))
  | _ => none

/-- The key of the text of a date that stands where entries are wanted. -/
def dateKey : String := "$__toml_private_datetime"

/-- The entries of a tree that is a table. A date counts as a table of its text. -/
def entries? : Toml → Option Entries
  | table _ entries => some entries
  | date s => some [(dateKey, text s)]
  | _ => none

def text? : Toml → Option String
  | text s => some s
  | _ => none

mutual

def isUsable : Toml → Bool
  | excess => false
  | array items => areUsable items
  | tables done => tablesUsable done
  | table _ entries => entriesUsable entries
  | _ => true

def areUsable : List Toml → Bool
  | [] => true
  | t :: rest => isUsable t && areUsable rest

def entriesUsable : List (String × Toml) → Bool
  | [] => true
  | (_, t) :: rest => isUsable t && entriesUsable rest

def tablesUsable : List (List (String × Toml)) → Bool
  | [] => true
  | entries :: rest => entriesUsable entries && tablesUsable rest

end

end Toml

end EventFold
