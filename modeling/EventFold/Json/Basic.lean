import EventFold.Form

/-!
# JSON

The tree of a JSON text. Members keep the order of the document and may repeat a key; what a repeated
key means is left to the reader of the tree. Values and forms are read from trees and written as trees.
-/

namespace EventFold

/-- A number of a JSON text. Integers of 64 bits stay integers. -/
inductive Json.Numeral where
  | integer (n : Int)
  | real (x : Number)
deriving DecidableEq

inductive Json where
  | null
  | bool (b : Bool)
  | number (n : Json.Numeral)
  | text (s : String)
  | array (items : List Json)
  | object (members : List (String × Json))
deriving Inhabited

namespace Json

def Numeral.toNumber : Numeral → Number
  | integer n => Float.ofInt n
  | real x => x

def value? : Json → Option Value
  | null => some .null
  | bool b => some (.bool b)
  | number n => some (.number n.toNumber)
  | text s => some (.text s)
  | array _ => none
  | object _ => none

mutual

def form? : Json → Option Form
  | null => some (.atom .null)
  | bool b => some (.atom (.bool b))
  | number n => some (.atom (.number n.toNumber))
  | text s => some (.atom (.text s))
  | array items => (forms? items).map .list
  | object _ => none

def forms? : List Json → Option (List Form)
  | [] => some []
  | j :: js => do return (← form? j) :: (← forms? js)

end

/-- Takes a member into an object with sorted keys; the later of two under one key stays. -/
def putSorted (key : String) (j : Json) : List (String × Json) → List (String × Json)
  | [] => [(key, j)]
  | m :: rest =>
    if key < m.1 then (key, j) :: m :: rest
    else if key = m.1 then (key, j) :: rest
    else m :: putSorted key j rest

mutual

/-- The tree with the members of every object in the order of their keys, each key once. -/
def sorted : Json → Json
  | array items => .array (sortedItems items)
  | object members => .object (sortedMembers [] members)
  | j => j

def sortedItems : List Json → List Json
  | [] => []
  | j :: js => sorted j :: sortedItems js

def sortedMembers (done : List (String × Json)) : List (String × Json) → List (String × Json)
  | [] => done
  | (key, j) :: rest => sortedMembers (putSorted key (sorted j) done) rest

end

end Json

def Value.toJson : Value → Json
  | null => .null
  | bool b => .bool b
  | number x => .number (.real x)
  | text s => .text s

mutual

def Form.toJson : Form → Json
  | .atom v => v.toJson
  | .list items => .array (Form.toJsonItems items)

def Form.toJsonItems : List Form → List Json
  | [] => []
  | f :: fs => f.toJson :: Form.toJsonItems fs

end

end EventFold
