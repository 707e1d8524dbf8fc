import EventFold.Command.Basic

/-!
# Command lines

A command line names a command and gives its options, each once, in any order. An option is written
`--name value`, `--name=value` or, if it has a letter, `-n value` or `-nvalue`. A value that begins with a
hyphen can only be given in the same word.
-/

namespace EventFold.Command

inductive Argument where
  | spec
  | events
  | config
  | snapshotIn
  | snapshotOut
deriving DecidableEq, Repr

namespace Argument

def all : List Argument := [spec, events, config, snapshotIn, snapshotOut]

def name : Argument → String
  | spec => "spec"
  | events => "events"
  | config => "config"
  | snapshotIn => "snapshot-in"
  | snapshotOut => "snapshot-out"

def letter? : Argument → Option Char
  | spec => some 's'
  | events => some 'e'
  | config => some 'c'
  | _ => none

end Argument

/-- An option that a word begins, with the value that the word gives to it. -/
def readOption? (word : List Char) : Option (Argument × Option String) :=
  match word with
  | '-' :: '-' :: rest =>
    let (name, value) := rest.span (· != '=')
    (Argument.all.find? fun a => a.name == String.ofList name).map fun a =>
      (a, if value.isEmpty then none else some (String.ofList value.tail))
  | '-' :: letter :: value =>
    (Argument.all.find? fun a => a.letter? == some letter).map fun a =>
      match value with
      | [] => (a, none)
      | '=' :: value => (a, some (String.ofList value))
      | value => (a, some (String.ofList value))
  | _ => none

def isValue (word : String) : Bool := !word.startsWith "-" || word == "-"

def readOptions? : List String → Option (List (Argument × String))
  | [] => some []
  | word :: rest => do
    match ← readOption? word.toList with
    | (a, some value) => return (a, value) :: (← readOptions? rest)
    | (a, none) =>
      match rest with
      | value :: rest => if isValue value then return (a, value) :: (← readOptions? rest) else none
      | [] => none

def ofArguments? : List String → Option Command
  | [] => none
  | command :: rest => do
    let options ← readOptions? rest
    guard (options.map Prod.fst).Nodup
    let given (a : Argument) := options.lookup a
    match command with
    | "check" =>
      guard (options.all fun o => o.1 ∈ [Argument.spec, .config])
      return .check (← given .spec) (given .config)
    | "replay" =>
      return .replay ⟨← given .spec, ← given .events, given .snapshotIn, given .snapshotOut⟩
        (given .config)
    | _ => none

def usage : String :=
  "Usage: aggregate check --spec <SPEC> [--config <CONFIG>]\n" ++
  "       aggregate replay --spec <SPEC> --events <EVENTS> [--config <CONFIG>] " ++
  "[--snapshot-in <SNAPSHOT_IN>] [--snapshot-out <SNAPSHOT_OUT>]\n"

def misused [Wording] (arguments : List String) (files : Files) : Report :=
  ⟨2, "", [.text (Wording.misuse arguments)], .plain, files, none, none⟩

def runArguments [Wording] (arguments : List String) (files : Files) (environment : Option String) : Report :=
  match ofArguments? arguments with
  | some c => c.run files environment
  | none => misused arguments files

/-- The words in which the command line tells of what others refuse, for want of theirs. -/
instance (priority := low) : Wording where
  line _ := "malformed JSON"
  specification _ := "JSON of no specification"
  snapshot _ := "JSON of no snapshot"
  config := "invalid TOML"
  directives _ := "invalid filter directive"
  tornDirective := "a log filter directive is cut within a character\n"
  unopenedLog := "initializing rolling file appender failed\n"
  misuse _ := usage

end EventFold.Command
