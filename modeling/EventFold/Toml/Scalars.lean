import EventFold.Number.Numeral
import EventFold.Toml.Basic

/-!
# Scalars of TOML texts

Numbers, truth values, dates and times are written without quotes, as one word; only between a date and a
time may stand a blank. Underscores may stand between digits of numbers.
-/

namespace EventFold.Toml

def isWordChar (c : Char) : Bool := c.isAlphanum || c == '_' || c == '+' || c == '-' || c == '.' || c == ':'

/-- Digits without the underscores between them, if they are digits with single underscores between. -/
def ungrouped? (isDigit : Char → Bool) : List Char → Option (List Char)
  | [] => none
  | [d] => if isDigit d then some [d] else none
  | d :: '_' :: s => if isDigit d then (ungrouped? isDigit s).map (d :: ·) else none
  | d :: s => if isDigit d then (ungrouped? isDigit s).map (d :: ·) else none

/-- Decimal digits that do not begin with a zero, unless they are one. -/
def whole? (s : List Char) : Option (List Char) := do
  let ds ← ungrouped? Char.isDigit s
  if ds.head? = some '0' && ds.length ≠ 1 then none else some ds

def digitValue (c : Char) : Nat := if c.isDigit then c.toNat - '0'.toNat else c.toLower.toNat - 'a'.toNat + 10

def based? : List Char → Option Nat
  | '0' :: mark :: s => do
    let base ←
      match mark with
      | 'x' => some 16
      | 'o' => some 8
      | 'b' => some 2
      | _ => none
    let isDigit (c : Char) : Bool :=
      (c.isDigit || ('a' ≤ c.toLower && c.toLower ≤ 'f')) && digitValue c < base
    let ds ← ungrouped? isDigit s
    return ds.foldl (fun n d => base * n + digitValue d) 0
  | _ => none

def integer? (s : List Char) : Option Int :=
  match based? s with
  | some n => some n
  | none => do
    let (negative, s) := Number.splitSign s
    let n := Nat.ofDigitChars 10 (← whole? s) 0
    return if negative then -(n : Int) else n

def unsignedReal? (s : List Char) : Option Number := do
  let (whole, s) := s.span fun c => c.isDigit || c == '_'
  let whole ← whole? whole
  let (fraction, s) ←
    match s with
    | '.' :: s => do
      let (ds, s) := s.span fun c => c.isDigit || c == '_'
      some (← ungrouped? Char.isDigit ds, s)
    | s => some ([], s)
  let exponent ←
    match s with
    | [] => if fraction.isEmpty then none else some (0 : Int)
    | e :: s => do
      guard (e == 'e' || e == 'E')
      let (negative, s) := Number.splitSign s
      let n := Nat.ofDigitChars 10 (← ungrouped? Char.isDigit s) 0
      some (if negative then -(n : Int) else n)
  return (Decimal.ofDigits (whole ++ fraction) (exponent - fraction.length)).toNumber

/-- The tree of a number that has a fraction or an exponent, or of `inf` or `nan`. Only `inf` itself is
infinite. -/
def real? (s : List Char) : Option Toml :=
  let (negative, s) := Number.splitSign s
  let signed (x : Number) : Number := if negative then -x else x
  if s == "inf".toList then some (.real (signed (1 / 0)))
  else if s == "nan".toList then some (.real Number.nan)
  else (unsignedReal? s).map fun x => if x.isInf then .excess else .real (signed x)

def field? (width most : Nat) (s : List Char) : Option (Nat × List Char) := do
  let ds := s.take width
  guard (ds.length == width && ds.all Char.isDigit)
  let n := Nat.ofDigitChars 10 ds 0
  guard (n ≤ most)
  return (n, s.drop width)

def daysOfMonth (year month : Nat) : Nat :=
  if month == 2 then
    if year % 4 == 0 && (year % 100 ≠ 0 || year % 400 == 0) then 29 else 28
  else if month == 4 || month == 6 || month == 9 || month == 11 then 30
  else 31

def past? (c : Char) : List Char → Option (List Char)
  | d :: s => if d == c then some s else none
  | [] => none

def date? (s : List Char) : Option (List Char × List Char) := do
  let (year, rest) ← field? 4 9999 s
  let (month, rest) ← field? 2 12 (← past? '-' rest)
  let (day, rest) ← field? 2 (daysOfMonth year month) (← past? '-' rest)
  guard (1 ≤ month && 1 ≤ day)
  return (s.take 10, rest)

def minutes? (s : List Char) : Option (List Char × List Char) := do
  let (_, rest) ← field? 2 23 s
  let (_, rest) ← field? 2 59 (← past? ':' rest)
  return (s.take 5, rest)

/-- The fraction of a second, which counts up to its ninth digit and is written without zeros at its end. -/
def fraction (digits : List Char) : List Char :=
  let significant := ((digits.take 9).reverse.dropWhile (· == '0')).reverse
  if significant.isEmpty then [] else '.' :: significant

/-- A time at the beginning of a text and what follows it. The seconds may be left out, and they are nought
then; where they stand, they may have a fraction. -/
def time? (s : List Char) : Option (List Char × List Char) := do
  let (minutes, s) ← minutes? s
  match s with
  | ':' :: rest => do
    let (_, behind) ← field? 2 60 rest
    let time := minutes ++ ':' :: rest.take 2
    match behind with
    | '.' :: behind =>
      let (digits, behind) := Number.splitDigits behind
      if digits.isEmpty then none else some (time ++ fraction digits, behind)
    | behind => some (time, behind)
  | s => some (minutes ++ [':', '0', '0'], s)

def offset? : List Char → Option (List Char)
  | [] => some []
  | c :: s =>
    if c == 'Z' || c == 'z' then if s.isEmpty then some ['Z'] else none
    else if c == '+' || c == '-' then
      match minutes? s with
      | some (minutes, []) => some ((if minutes == "00:00".toList then '+' else c) :: minutes)
      | _ => none
    else none

def moment? (s : List Char) : Option (List Char) :=
  match date? s with
  | some (day, []) => some day
  | some (day, c :: s) => do
    guard (c == 'T' || c == 't' || c == ' ')
    let (time, s) ← time? s
    return day ++ 'T' :: time ++ (← offset? s)
  | none =>
    match time? s with
    | some (time, []) => some time
    | _ => none

/-- The tree of an integer. Integers have 128 bits, with a sign or without. -/
def ofInteger (n : Int) : Toml :=
  if -Nat.pow 2 127 ≤ n && n < Nat.pow 2 128 then .integer n else .excess

def ofWord? (s : List Char) : Option Toml :=
  if s == "true".toList then some (.bool true)
  else if s == "false".toList then some (.bool false)
  else
    match moment? s with
    | some moment => some (.date (String.ofList moment))
    | none =>
      match integer? s with
      | some n => some (ofInteger n)
      | none => real? s

/-- The word that a text begins with, a time behind a date and a blank included, and the rest. -/
def splitWord (s : List Char) : List Char × List Char :=
  let (word, rest) := s.span isWordChar
  match date? word, rest with
  | some (_, []), ' ' :: c :: more =>
    if c.isDigit then
      let (time, rest) := (c :: more).span isWordChar
      (word ++ ' ' :: time, rest)
    else (word, rest)
  | _, _ => (word, rest)

end EventFold.Toml
