import EventFold.Config.Basic
import EventFold.Toml.Reader

/-!
# Reading configurations

A configuration is read from a TOML text. Every section and every entry may be left out, and entries that
are not known are passed over, though their numbers have to be such as can be used. A section may also be
written as an array of its entries in their order, of which those beyond the last are not looked at, and a
word out of a list of words also as a table of the word and nothing.
-/

namespace EventFold

open Toml (Entries)

namespace Toml

/-- The entries of a section, if those under other keys than the given ones can at least be passed over. -/
def known? (keys : List String) (entries : Entries) : Option Entries :=
  if entries.all fun (key, t) => keys.contains key || t.isUsable then some entries else none

def section? (keys : List String) (t : Toml) : Option Entries :=
  match t.items? with
  | some items => some (keys.zip items)
  | none => t.entries?.bind (known? keys)

/-- An entry of a section, or its default if it is left out. -/
def entryOr {α : Type} (entries : Entries) (key : String) (f : Toml → Option α) (default : α) :
    Option α :=
  match entries.lookup key with
  | some t => f t
  | none => some default

def word? {α : Type} (ofWord? : String → Option α) : Toml → Option α
  | text s => ofWord? s
  | table _ [(s, table _ [])] => ofWord? s
  | table _ [(s, array [])] => ofWord? s
  | _ => none

def natural? : Toml → Option Nat
  | integer n => if 0 ≤ n && n < Nat.pow 2 64 then some n.toNat else none
  | _ => none

def tableOf? {α : Type} (f : Toml → Option α) (t : Toml) : Option (Table α) := do
  return .ofList (← (← t.entries?).mapM fun (key, v) => (f v).map (key, ·))

def texts? (t : Toml) : Option (List String) := do
  (← t.items?).mapM text?

end Toml

namespace Config

def readCallDepth (t : Toml) : Option Nat := do
  let entries ← Toml.section? ["max_call_depth"] t
  Toml.entryOr entries "max_call_depth" Toml.natural? Config.default.maxCallDepth

def readLogging (t : Toml) : Option Logging := do
  let entries ← Toml.section? ["level", "modules", "file", "format"] t
  return {
    level := ← Toml.entryOr entries "level" Toml.text? Logging.default.level
    modules := ← Toml.entryOr entries "modules" (Toml.tableOf? Toml.text?) ∅
    file := ← Toml.entryOr entries "file" (fun t => t.text?.map some) none
    format := ← Toml.entryOr entries "format" (Toml.word? LogFormat.ofWord?) Logging.default.format }

def readCatalog (t : Toml) : Option Catalog := do
  let entries ← Toml.section? ["props", "events"] t
  return {
    properties := ← Toml.entryOr entries "props" (Toml.tableOf? (Toml.word? PropertyType.ofWord?)) ∅
    events := ← Toml.entryOr entries "events" (Toml.tableOf? Toml.texts?) ∅ }

def ofEntries? (entries : Entries) : Option Config := do
  let entries ← Toml.known? ["engine", "logging", "catalog"] entries
  return {
    maxCallDepth := ← Toml.entryOr entries "engine" readCallDepth Config.default.maxCallDepth
    logging := ← Toml.entryOr entries "logging" readLogging .default
    catalog := ← Toml.entryOr entries "catalog" readCatalog .empty }

def ofText (text : String) : Except ConfigFault Config :=
  match (Toml.ofText? text).bind ofEntries? with
  | some c => c.validate
  | none => .error .unreadable

end Config

end EventFold
