/-!
# Wording

Parts of what is told come from elsewhere: from the readers of JSON, of TOML and of command lines, from the filter of
a log and from what opens a log file. How they word it is not a matter of this library. Whatever shows their words
takes them as given.
-/

namespace EventFold

/-- What others say of what they refuse. -/
class Wording where
  /-- Of a line of an event log that is no JSON. -/
  line (text : String) : String
  specification (text : String) : String
  snapshot (text : String) : String
  /-- Of the text of the configuration. A run has one. -/
  config : String
  /-- Of directives for a log that are not all good. -/
  directives (text : String) : String
  tornDirective : String
  unopenedLog : String
  /-- Of a command line that names no command or does not give its options. -/
  misuse (arguments : List String) : String

end EventFold
