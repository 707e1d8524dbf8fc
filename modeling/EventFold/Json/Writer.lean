import EventFold.Json.Basic
import EventFold.Json.Quoted

/-!
# Writing JSON texts

One writer serves two forms: the compact one without any blanks, and the spread one with every element
on a line of its own. A number that is not finite has no form in JSON and is written as `null`.
-/

namespace EventFold.Json

structure Spacing where
  /-- What stands before an element, or before a closing bracket, at a depth. -/
  line : Nat → List Char
  gap : List Char

def Spacing.compact : Spacing := ⟨fun _ => [], []⟩

def Spacing.spread : Spacing := ⟨fun depth => '\n' :: List.replicate (2 * depth) ' ', [' ']⟩

def integerChars (n : Int) : List Char :=
  (if n < 0 then ['-'] else []) ++ Nat.toDigits 10 n.natAbs

def Numeral.chars : Numeral → List Char
  | integer n => integerChars n
  | real x => if x.isFinite then Layout.json.render x else "null".toList

mutual

def write (spacing : Spacing) (depth : Nat) : Json → List Char
  | null => "null".toList
  | bool true => "true".toList
  | bool false => "false".toList
  | number n => n.chars
  | text s => quoted s
  | array [] => ['[', ']']
  | array (j :: js) =>
    '[' :: spacing.line (depth + 1) ++ write spacing (depth + 1) j ++
      writeItems spacing (depth + 1) js ++ spacing.line depth ++ [']']
  | object [] => ['\x7b', '\x7d']
  | object ((key, j) :: members) =>
    '\x7b' :: spacing.line (depth + 1) ++ quoted key ++ ':' :: spacing.gap ++
      write spacing (depth + 1) j ++ writeMembers spacing (depth + 1) members ++
      spacing.line depth ++ ['\x7d']

def writeItems (spacing : Spacing) (depth : Nat) : List Json → List Char
  | [] => []
  | j :: js => ',' :: spacing.line depth ++ write spacing depth j ++ writeItems spacing depth js

def writeMembers (spacing : Spacing) (depth : Nat) : List (String × Json) → List Char
  | [] => []
  | (key, j) :: members =>
    ',' :: spacing.line depth ++ quoted key ++ ':' :: spacing.gap ++ write spacing depth j ++
      writeMembers spacing depth members

end

def compact (j : Json) : String := String.ofList (j.write .compact 0)

def spread (j : Json) : String := String.ofList (j.write .spread 0)

end EventFold.Json
