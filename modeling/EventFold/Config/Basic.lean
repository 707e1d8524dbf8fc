import EventFold.Catalog
import EventFold.Eval.CallStack
import EventFold.Text.Quoted
import EventFold.Wording

/-!
# Configuration

A configuration has three sections: the engine, the log and the catalog. All have defaults.
-/

namespace EventFold

inductive LogFormat where
  | plain
  | json
deriving DecidableEq, Repr

namespace LogFormat

def all : List LogFormat := [plain, json]

def word : LogFormat → String
  | plain => "plain"
  | json => "json"

def ofWord? (s : String) : Option LogFormat :=
  all.find? fun format => format.word == s

end LogFormat

structure Logging where
  level : String
  modules : Table String
  file : Option String
  format : LogFormat

def Logging.default : Logging := ⟨"info", ∅, none, .plain⟩

/-- The filter of the log as directives: the level, then the modules in the order of their names. -/
def Logging.directives (l : Logging) : String :=
  l.modules.sorted.foldl (fun s (name, level) => s ++ "," ++ name ++ "=" ++ level) l.level

structure Config where
  maxCallDepth : Nat
  logging : Logging
  catalog : Catalog

def Config.default : Config := ⟨CallStack.defaultLimit, .default, .empty⟩

inductive ConfigFault where
  | unreadable
  | noCallDepth
  /-- An event carries a property that is not declared, while others are. -/
  | undeclared (event property : String)
deriving DecidableEq

def ConfigFault.message [Wording] : ConfigFault → String
  | unreadable => Wording.config
  | noCallDepth => "engine.max_call_depth must be > 0"
  | undeclared event property =>
    "catalog.events." ++ event ++ ": property " ++ Text.quote property ++
      " is not declared in catalog.props"

namespace Config

def undeclared? (c : Catalog) : Option ConfigFault :=
  c.events.entries.findSome? fun (event, properties) =>
    (properties.find? fun p => !c.declares p).map (.undeclared event)

/-- Judges a configuration: calls need room, and once properties are declared events carry only such. -/
def validate (c : Config) : Except ConfigFault Config :=
  if c.maxCallDepth == 0 then .error .noCallDepth
  else if c.catalog.properties.isEmpty then .ok c
  else
    match undeclared? c.catalog with
    | some fault => .error fault
    | none => .ok c

end Config

end EventFold
