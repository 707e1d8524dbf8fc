/-!
# Which names a form may refer to

A vocabulary says which properties, variables and aggregators a form may refer to. Empty names are
never accepted, whatever the vocabulary says.
-/

namespace EventFold

inductive NameKind where
  | property
  | var
  | aggregator
  | function
deriving DecidableEq, Repr

def NameKind.word : NameKind → String
  | property => "property"
  | var => "variable"
  | aggregator => "aggregator"
  | function => "function"

/-- The names that forms may refer to. -/
structure Vocabulary where
  property : String → Bool
  var : String → Bool
  aggregator : String → Bool

def Vocabulary.any : Vocabulary where
  property _ := true
  var _ := true
  aggregator _ := true

end EventFold
