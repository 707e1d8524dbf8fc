import EventFold.Toml.Basic
import EventFold.Json.Quoted

/-!
# Strings of TOML texts

There are four kinds of strings: between double quotes with escapes or between single quotes without any,
each on one line or on several between three quotes. A string of several lines may end in up to two quotes
of its own before the three that close it; a line break right behind its opening is left out; a backslash
at the end of a line leaves out the break and all blanks behind it.
-/

namespace EventFold.Toml

def isBlank (c : Char) : Bool := c == ' ' || c == '\t'

def isPlain (c : Char) : Bool := c == '\t' || (0x20 ≤ c.toNat && c.toNat ≠ 0x7F)

def unescape? : Char → Option Char
  | 'b' => some '\x08'
  | 't' => some '\t'
  | 'n' => some '\n'
  | 'f' => some '\x0c'
  | 'r' => some '\r'
  | 'e' => some '\x1b'
  | '"' => some '"'
  | '\\' => some '\\'
  | _ => none

def ofHex? (digits : List Char) : Option Char := do
  let n ← digits.foldlM (fun n d => (Json.hexDigit? d).map (16 * n + ·)) 0
  if n.isValidChar then some (Char.ofNat n) else none

def hexWidth? : Char → Option Nat
  | 'x' => some 2
  | 'u' => some 4
  | 'U' => some 8
  | _ => none

def escape? : List Char → Option (Char × Nat)
  | [] => none
  | e :: s =>
    match hexWidth? e with
    | some width =>
      if (s.take width).length == width then (ofHex? (s.take width)).map (·, width + 1) else none
    | none => (unescape? e).map (·, 1)

def cons (c : Char) (r : Option (List Char × List Char)) : Option (List Char × List Char) :=
  r.map fun (cs, rest) => (c :: cs, rest)

/-- A string of one line from behind its double quote; so many characters belong to an escape already read. -/
def basic? (skip : Nat) : List Char → Option (List Char × List Char)
  | [] => none
  | c :: s =>
    match skip with
    | skip + 1 => basic? skip s
    | 0 =>
      if c == '"' then some ([], s)
      else if c == '\\' then
        match escape? s with
        | some (e, width) => cons e (basic? width s)
        | none => none
      else if isPlain c then cons c (basic? 0 s)
      else none

def literal? : List Char → Option (List Char × List Char)
  | [] => none
  | c :: s =>
    if c == '\'' then some ([], s) else if isPlain c then cons c (literal? s) else none

def beginsLine : List Char → Bool
  | '\n' :: _ => true
  | '\r' :: '\n' :: _ => true
  | _ => false

def dropBreak : List Char → List Char
  | '\n' :: s => s
  | '\r' :: '\n' :: s => s
  | s => s

/-- The end of a string of several lines: the quotes that belong to it and what follows. -/
def closing? (quote : Char) (s : List Char) : Option (List Char × List Char) :=
  let run := (s.takeWhile (· == quote)).length
  if run < 3 then none else some (List.replicate (min run 5 - 3) quote, s.drop (min run 5))

inductive Mode where
  | plain
  /-- So many characters belong to an escape already read. -/
  | skip (count : Nat)
  | joining
deriving DecidableEq

def basicLines? (mode : Mode) : List Char → Option (List Char × List Char)
  | [] => none
  | c :: s =>
    match mode with
    | .skip (count + 2) => basicLines? (.skip (count + 1)) s
    | .skip _ => basicLines? .plain s
    | mode =>
      if mode = .joining && (isBlank c || beginsLine (c :: s)) then basicLines? .joining s
      else
        match closing? '"' (c :: s) with
        | some r => some r
        | none =>
          if c == '\\' then
            if beginsLine (s.dropWhile isBlank) then basicLines? .joining s
            else
              match escape? s with
              | some (e, width) => cons e (basicLines? (.skip width) s)
              | none => none
          else if isPlain c || beginsLine (c :: s) then cons c (basicLines? .plain s)
          else none

def literalLines? : List Char → Option (List Char × List Char)
  | [] => none
  | c :: s =>
    match closing? '\'' (c :: s) with
    | some r => some r
    | none => if isPlain c || beginsLine (c :: s) then cons c (literalLines? s) else none

def string? (s : List Char) : Option (List Char × List Char) :=
  match Text.after? ['"', '"', '"'] s, Text.after? ['\'', '\'', '\''] s, s with
  | some s, _, _ => basicLines? .plain (dropBreak s)
  | _, some s, _ => literalLines? (dropBreak s)
  | _, _, '"' :: s => basic? 0 s
  | _, _, '\'' :: s => literal? s
  | _, _, _ => none

end EventFold.Toml
