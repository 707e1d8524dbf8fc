import EventFold.Json.Basic

/-!
# Strings of JSON texts

Between its quotes a string stands for a sequence of pieces: characters, and halves of surrogate pairs
that escapes spell. Two halves that fit make a character. A half that is left alone is refused in a
string that is kept; in one that is only passed over it does not matter.

In writing, the quote, the backslash and the characters below U+0020 are escaped and nothing else.
-/

namespace EventFold.Json

/-- Whether what is read is kept, or only passed over. -/
inductive Use where
  | kept
  | ignored
deriving DecidableEq

inductive Piece where
  | char (c : Char)
  /-- A half of a surrogate pair, by its code. -/
  | half (code : Nat)
deriving DecidableEq

def hexDigit? (c : Char) : Option Nat :=
  if c.isDigit then some (c.toNat - '0'.toNat)
  else if 'a' ≤ c && c ≤ 'f' then some (c.toNat - 'a'.toNat + 10)
  else if 'A' ≤ c && c ≤ 'F' then some (c.toNat - 'A'.toNat + 10)
  else none

def hexCode? (a b c d : Char) : Option Nat := do
  return (((← hexDigit? a) * 16 + (← hexDigit? b)) * 16 + (← hexDigit? c)) * 16 + (← hexDigit? d)

def unescape? : Char → Option Char
  | '"' => some '"'
  | '\\' => some '\\'
  | '/' => some '/'
  | 'b' => some '\x08'
  | 'f' => some '\x0c'
  | 'n' => some '\n'
  | 'r' => some '\r'
  | 't' => some '\t'
  | _ => none

def Piece.ofCode (code : Nat) : Piece :=
  if 0xD800 ≤ code && code ≤ 0xDFFF then .half code else .char (Char.ofNat code)

def pieces? : List Char → Option (List Piece × List Char)
  | [] => none
  | '"' :: s => some ([], s)
  | '\\' :: 'u' :: a :: b :: c :: d :: s => do
    let code ← hexCode? a b c d
    let (ps, rest) ← pieces? s
    return (.ofCode code :: ps, rest)
  | '\\' :: e :: s => do
    let c ← unescape? e
    let (ps, rest) ← pieces? s
    return (.char c :: ps, rest)
  | c :: s => do
    guard (0x20 ≤ c.toNat)
    let (ps, rest) ← pieces? s
    return (.char c :: ps, rest)

/-- The character that two halves make, the upper one first. -/
def joinHalves? (upper lower : Nat) : Option Char :=
  if upper < 0xDC00 && 0xDC00 ≤ lower then
    some (Char.ofNat (0x10000 + (upper - 0xD800) * 0x400 + (lower - 0xDC00)))
  else none

/-- What stands for a half that is left alone, if it may be; nothing for no half. -/
def loneHalf? (use : Use) (waiting : Option Nat) : Option (List Char) :=
  match waiting, use with
  | none, _ => some []
  | some _, .kept => none
  | some _, .ignored => some ['\uFFFD']

def joined? (use : Use) (waiting : Option Nat) : List Piece → Option (List Char)
  | [] => loneHalf? use waiting
  | .char c :: ps => do return (← loneHalf? use waiting) ++ c :: (← joined? use none ps)
  | .half lower :: ps =>
    match waiting.bind (joinHalves? · lower) with
    | some c => (joined? use none ps).map (c :: ·)
    | none => do return (← loneHalf? use waiting) ++ (← joined? use (some lower) ps)

def string? (use : Use) (s : List Char) : Option (String × List Char) := do
  let (ps, rest) ← pieces? s
  return (String.ofList (← joined? use none ps), rest)

def escapeLetter? : Char → Option Char
  | '"' => some '"'
  | '\\' => some '\\'
  | '\x08' => some 'b'
  | '\x0c' => some 'f'
  | '\n' => some 'n'
  | '\r' => some 'r'
  | '\t' => some 't'
  | _ => none

def escapeChar (c : Char) : List Char :=
  match escapeLetter? c with
  | some letter => ['\\', letter]
  | none =>
    if c.toNat < 0x20 then
      ['\\', 'u', '0', '0', Nat.digitChar (c.toNat / 16), Nat.digitChar (c.toNat % 16)]
    else [c]

def quoted (s : String) : List Char :=
  '"' :: s.toList.flatMap escapeChar ++ ['"']

end EventFold.Json
