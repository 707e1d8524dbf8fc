import EventFold.Json.Writer
import EventFold.Log.Record

/-!
# Log lines

A record is written as a plain line, with colours or without, or as a line of JSON. A plain line has the
time, the level, the domain in brackets if there is one, the message and the fields.
-/

namespace EventFold.Log

def Content.shown : Content → String
  | text s => Text.quote s
  | content => content.bare

def Content.toJson : Content → Json
  | text s => .text s
  | plain s => .text s
  | count n => .number (.integer n)
  | flag b => .bool b

def Level.padded (level : Level) : String :=
  String.ofList (List.replicate (5 - level.name.length) ' ') ++ level.name

def Level.colour : Level → String
  | error => "31"
  | warn => "33"
  | info => "32"
  | debug => "34"
  | trace => "35"

def styled (style s : String) : String := "\x1b[" ++ style ++ "m" ++ s ++ "\x1b[0m"

def styledIf (coloured : Bool) (style s : String) : String :=
  if coloured then styled style s else s

namespace Record

def shownFields (r : Record) : String :=
  String.intercalate " " (r.fields.map fun (name, content) => name ++ "=" ++ content.shown)

def plainLine (coloured : Bool) (time : String) (r : Record) : String :=
  styledIf coloured "2" time ++ " " ++ styledIf coloured r.level.colour r.level.padded ++ " " ++
    (r.domain.map fun d => styledIf coloured "1;36" ("[" ++ d ++ "]") ++ " ").getD "" ++
    r.message ++
    (if r.fields.isEmpty then "" else " " ++ styledIf coloured "3" r.shownFields) ++ "\n"

def jsonLine (time : String) (r : Record) : String :=
  let domain := (r.domain.map fun d => [("domain", Json.text d)]).getD []
  let fields := ("message", .text r.message) :: domain ++ r.fields.map fun (name, c) => (name, c.toJson)
  (Json.object
    [("timestamp", .text time), ("level", .text r.level.name), ("fields", .object fields)]).compact ++ "\n"

end Record

end EventFold.Log
